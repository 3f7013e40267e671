import SqlAssembly.Filter.Classify
import SqlAssembly.Proofs.Operator
import SqlAssembly.Proofs.Outcome

namespace SqlAssembly

/-!
# Tests and their forms

A test becomes a condition if it has one of the seven forms.  A test that has none is refused for
its column first, then for its operator, then for what stands behind it; of a subquery that is
compared with something only the operator and what stands behind it are looked at.

* `Test` — a test as the caller writes it;
* `Test.Fits` — the forms, each with its condition;
* `Test.Refused` — the error of a test that has none of them;
* `Condition.classify_test_eq_ok_iff`, `Condition.classify_test_eq_error_iff` — these are the tests
  that become conditions, and the errors of the others.
-/

/-! ### The forms -/

/-- A test as the caller writes it. -/
structure Test where
  subject : Operand
  op : String
  operand : Option Operand

/-- The operand is the name of a column: a text that is not blank and can be quoted. -/
def Operand.Names (o : Operand) (field : String) : Prop :=
  ∃ text, o = .value (.text text) ∧ Text.allBlank text.toList = false ∧
    quoteColumn text = .ok field

/-- The operand is not the name of a column, and what is wrong with it. -/
inductive Operand.Unnamed : Operand → Error → Prop
  | noText {o : Operand} : (∀ text, o ≠ .value (.text text)) → Unnamed o (.fieldNoName o.kind)
  | blank {text : String} : Text.allBlank text.toList = true →
    Unnamed (.value (.text text)) .blankField
  | unquotable {text : String} {e : Error} : Text.allBlank text.toList = false →
    quoteColumn text = .error e → Unnamed (.value (.text text)) e

/-- The forms of a test of a column, by what stands behind the operator. -/
inductive Operator.Tests (field : String) (op : Operator) : Option Operand → Condition → Prop
  | nullCheck : op ∈ Class.nullCheck.members → Tests field op none (.nullCheck field op)
  | inList {values : List Value} : op ∈ Class.list.members → values ≠ [] →
    Tests field op (some (.list values)) (.inList field op values)
  | between {low high : Value} : op ∈ Class.range.members →
    Tests field op (some (.list [low, high])) (.between field op low high)
  | pattern {text : String} : op ∈ Class.pattern.members →
    Tests field op (some (.value (.text text))) (.pattern field op text)
  | compare {v : Value} : op ∈ Class.comparison.members →
    Tests field op (some (.value v)) (.compare field op v)
  | columns {expr column : String} : op ∈ Class.comparison.members →
    Text.allBlank expr.toList = false → quoteColumn expr = .ok column →
    Tests field op (some (.column expr)) (.columns field op column)

/-- What is wrong with what stands behind an operator. -/
inductive Operator.Rejects (op : Operator) : Option Operand → Error → Prop
  | missing : op ∉ Class.nullCheck.members → Rejects op none (.valueMissing op)
  | columns {expr : String} : op ∉ Class.comparison.members →
    Rejects op (some (.column expr)) (.operatorOnColumns op)
  | blankColumn {expr : String} : op ∈ Class.comparison.members →
    Text.allBlank expr.toList = true → Rejects op (some (.column expr)) .blankReference
  | unquotable {expr : String} {e : Error} : op ∈ Class.comparison.members →
    Text.allBlank expr.toList = false → quoteColumn expr = .error e →
    Rejects op (some (.column expr)) e
  | unexpected {o : Operand} : op ∈ Class.nullCheck.members → (∀ expr, o ≠ .column expr) →
    Rejects op (some o) (.valueUnexpected op)
  | emptyList : op ∈ Class.list.members → Rejects op (some (.list [])) (.listEmpty op)
  | noList {o : Operand} : op ∈ Class.list.members → (∀ expr, o ≠ .column expr) →
    (∀ values, o ≠ .list values) → Rejects op (some o) (.listExpected op o.kind)
  | noPair {values : List Value} : op ∈ Class.range.members → values.length ≠ 2 →
    Rejects op (some (.list values)) (.pairSize op values.length)
  | noRange {o : Operand} : op ∈ Class.range.members → (∀ expr, o ≠ .column expr) →
    (∀ values, o ≠ .list values) → Rejects op (some o) (.pairExpected op o.kind)
  | noPattern {o : Operand} : op ∈ Class.pattern.members → (∀ expr, o ≠ .column expr) →
    (∀ text, o ≠ .value (.text text)) → Rejects op (some o) (.patternExpected op o.kind)
  | noScalar {o : Operand} : op ∈ Class.comparison.members → (∀ expr, o ≠ .column expr) →
    (∀ v, o ≠ .value v) → Rejects op (some o) (.scalarExpected op o.kind)

namespace Test

/-- The test has a form: it tests a column, or compares a subquery with a value. -/
inductive Fits : Test → Condition → Prop
  | column {subject : Operand} {text field : String} {op : Operator} {operand : Option Operand}
    {c : Condition} : subject.Names field → op.Spelled text → op.Tests field operand c →
    Fits ⟨subject, text, operand⟩ c
  | subquery {query : Select} {text : String} {op : Operator} {v : Value} : op.Spelled text →
    op ∈ Operator.Class.comparison.members →
    Fits ⟨.select query, text, some (.value v)⟩ (.subquery query op v)

/-- The test has none of the forms, and what is wrong first.  Of a subquery that is compared with
something only the operator and the operand are looked at. -/
inductive Refused : Test → Error → Prop
  | subject {subject : Operand} {text : String} {operand : Option Operand} {e : Error} :
    (∀ query, subject = .select query → operand = none) → subject.Unnamed e →
    Refused ⟨subject, text, operand⟩ e
  | operator {subject : Operand} {text field : String} {operand : Option Operand} :
    subject.Names field → (∀ op : Operator, ¬ op.Spelled text) →
    Refused ⟨subject, text, operand⟩ (.operatorUnknown text)
  | operand {subject : Operand} {text field : String} {op : Operator} {operand : Option Operand}
    {e : Error} : subject.Names field → op.Spelled text → op.Rejects operand e →
    Refused ⟨subject, text, operand⟩ e
  | subqueryOperator {query : Select} {text : String} {o : Operand} :
    (∀ op : Operator, ¬ op.Spelled text) →
    Refused ⟨.select query, text, some o⟩ (.operatorUnknown text)
  | subqueryClass {query : Select} {text : String} {op : Operator} {o : Operand} :
    op.Spelled text → op ∉ Operator.Class.comparison.members →
    Refused ⟨.select query, text, some o⟩ (.operatorOnSubquery op)
  | subqueryOperand {query : Select} {text : String} {op : Operator} {o : Operand} :
    op.Spelled text → op ∈ Operator.Class.comparison.members → (∀ v, o ≠ .value v) →
    Refused ⟨.select query, text, some o⟩ (.subqueryScalarExpected op o.kind)

end Test

/-! ### The parts of a test -/

/-- The column of a test is the text that names it, in its quoted form. -/
theorem fieldOf_eq_ok_iff {o : Operand} {field : String} :
    fieldOf o = .ok field ↔ o.Names field := by
  constructor
  · intro h
    unfold fieldOf at h
    split at h
    · next text =>
      split at h
      · cases h
      · next hblank => exact ⟨text, rfl, Bool.eq_false_iff.mpr hblank, h⟩
    · cases h
  · rintro ⟨text, rfl, hblank, hquote⟩
    rw [fieldOf, hblank]
    exact hquote

/-- A subject that names no column is refused for what is wrong with it. -/
theorem fieldOf_eq_error_iff {o : Operand} {e : Error} :
    fieldOf o = .error e ↔ o.Unnamed e := by
  constructor
  · intro h
    unfold fieldOf at h
    split at h
    · split at h
      · next hblank =>
        cases h
        exact .blank hblank
      · next hblank => exact .unquotable (Bool.eq_false_iff.mpr hblank) h
    · next hne =>
      cases h
      exact .noText hne
  · intro h
    -- conversely, each of the three ways to be wrong ends in its error
    cases h with
    | noText hne =>
      unfold fieldOf
      split
      · next text => exact absurd rfl (hne text)
      · rfl
    | blank hblank => rw [fieldOf, if_pos hblank]
    | unquotable hblank hquote =>
      rw [fieldOf, hblank]
      exact hquote

/-- The operator of a test is one that is spelled so. -/
theorem operatorOf_eq_ok_iff {text : String} {op : Operator} :
    operatorOf text = .ok op ↔ op.Spelled text := by
  rw [← Operator.parse?_eq_some_iff, operatorOf]
  cases Operator.parse? text <;> simp

/-- A text that spells no operator is refused. -/
theorem operatorOf_eq_error_iff {text : String} {e : Error} :
    operatorOf text = .error e ↔
      (∀ op : Operator, ¬ op.Spelled text) ∧ e = .operatorUnknown text := by
  have hnone : (∀ op : Operator, ¬ op.Spelled text) ↔ Operator.parse? text = none := by
    simp only [← Operator.parse?_eq_some_iff]
    exact Option.eq_none_iff_forall_ne_some.symm
  rw [hnone, operatorOf]
  cases Operator.parse? text <;> simp [eq_comm]

namespace Condition

open Operator (Class cls_eq_iff)

/-- The form of a test of a column, from its checked parts. -/
def ofParts (field : String) (op : Operator) (operand : Option Operand) : Except Error Condition :=
  match op.cls, operand with
  | .comparison, some (.column expr) =>
    if Text.allBlank expr.toList then .error .blankReference
    else (quoteColumn expr).map (.columns field op)
  | _, some (.column _) => .error (.operatorOnColumns op)
  | .nullCheck, none => .ok (.nullCheck field op)
  | .nullCheck, some _ => .error (.valueUnexpected op)
  | _, none => .error (.valueMissing op)
  | .list, some (.list []) => .error (.listEmpty op)
  | .list, some (.list values) => .ok (.inList field op values)
  | .list, some other => .error (.listExpected op other.kind)
  | .range, some (.list [low, high]) => .ok (.between field op low high)
  | .range, some (.list values) => .error (.pairSize op values.length)
  | .range, some other => .error (.pairExpected op other.kind)
  | .pattern, some (.value (.text text)) => .ok (.pattern field op text)
  | .pattern, some other => .error (.patternExpected op other.kind)
  | .comparison, some (.value v) => .ok (.compare field op v)
  | .comparison, some other => .error (.scalarExpected op other.kind)

/-- A test that does not compare a subquery is checked part by part. -/
theorem classify_test_eq {subject : Operand} {text : String} {operand : Option Operand}
    (h : ∀ query, subject = .select query → operand = none) :
    classify (.test subject text operand) =
      fieldOf subject >>= fun field => operatorOf text >>= fun op => ofParts field op operand := by
  unfold classify
  split
  case h_1 heq => cases heq
  case h_2 heq => cases heq
  case h_3 query op operand heq =>
    -- this one compares a subquery
    obtain ⟨rfl, -, rfl⟩ := Filter.test.inj heq
    cases h query rfl
  case h_4 subject op expr hselect heq =>
    obtain ⟨rfl, rfl, rfl⟩ := Filter.test.inj heq
    refine bind_congr fun field => bind_congr fun op => ?_
    unfold ofParts
    cases op.cls with
    | comparison =>
      dsimp only
      rw [if_neg (not_not_intro rfl)]
      split
      · rfl
      · cases quoteColumn expr <;> rfl
    | list | pattern | nullCheck | range => rfl
  case h_5 subject op operand hselect hcolumn heq =>
    obtain ⟨rfl, rfl, rfl⟩ := Filter.test.inj heq
    refine bind_congr fun field => bind_congr fun op => ?_
    unfold ofParts
    -- what stands behind the operator is no column, and then both sides ask the same
    rcases operand with _ | v | vs | expr | query
    · cases op.cls <;> rfl
    · cases op.cls <;> cases v <;> rfl
    · rcases vs with _ | ⟨a, _ | ⟨b, _ | ⟨c, vs⟩⟩⟩
      all_goals cases op.cls <;> rfl
    · cases hcolumn expr rfl
    · cases op.cls <;> rfl

/-- A column, an operator and an operand become a condition exactly in the forms of
`Operator.Tests`. -/
theorem ofParts_eq_ok_iff {field : String} {op : Operator} {operand : Option Operand}
    {c : Condition} : ofParts field op operand = .ok c ↔ op.Tests field operand c := by
  constructor
  · intro h
    unfold ofParts at h
    split at h
    case h_1 expr hop =>
      split at h
      · cases h
      · next hblank =>
        obtain ⟨column, hcolumn, rfl⟩ := map_eq_ok.mp h
        exact .columns (cls_eq_iff.mp hop) (Bool.eq_false_iff.mpr hblank) hcolumn
    case h_3 hop =>
      cases h
      exact .nullCheck (cls_eq_iff.mp hop)
    case h_7 hne hop =>
      cases h
      exact .inList (cls_eq_iff.mp hop) fun hnil => hne (hnil ▸ rfl)
    case h_9 hop =>
      cases h
      exact .between (cls_eq_iff.mp hop)
    case h_12 hop =>
      cases h
      exact .pattern (cls_eq_iff.mp hop)
    case h_14 hop =>
      cases h
      exact .compare (cls_eq_iff.mp hop)
    -- the others are refused
    all_goals cases h
  · intro h
    -- the class of the operator decides which branch is taken
    cases h with
    | nullCheck hop | between hop | pattern hop | compare hop =>
      unfold ofParts
      rw [cls_eq_iff.mpr hop]
    | @inList values hop hne =>
      unfold ofParts
      rw [cls_eq_iff.mpr hop]
      cases values with
      | nil => exact absurd rfl hne
      | cons v values => rfl
    | columns hop hblank hcolumn =>
      unfold ofParts
      rw [cls_eq_iff.mpr hop]
      show (if _ then _ else (quoteColumn _).map _) = _
      rw [hblank, hcolumn]
      rfl

/-! ### What the classes of operators refuse -/

section

variable {field : String} {op : Operator} {o : Operand} {e : Error}

/-- Only a null check is complete without an operand. -/
theorem ofParts_none_eq_error_iff :
    ofParts field op none = .error e ↔ op.Rejects none e := by
  unfold ofParts
  constructor
  · intro h
    cases hcls : op.cls with
    | nullCheck =>
      rw [hcls] at h
      cases h
    | comparison | list | pattern | range =>
      have hmem : op ∉ Class.nullCheck.members := fun hmem => by
        cases hcls.symm.trans (cls_eq_iff.mpr hmem)
      rw [hcls] at h
      cases h
      exact .missing hmem
  · intro h
    cases h with
    | missing hop =>
      cases hcls : op.cls with
      | nullCheck => exact absurd (cls_eq_iff.mp hcls) hop
      | comparison | list | pattern | range => rfl

/-- Another class than the comparisons is refused before the column is looked at. -/
theorem ofParts_column_of_not_mem {expr : String} (hop : op ∉ Class.comparison.members) :
    ofParts field op (some (.column expr)) = .error (.operatorOnColumns op) := by
  unfold ofParts
  cases hcls : op.cls with
  | comparison => exact absurd (cls_eq_iff.mp hcls) hop
  | nullCheck | list | pattern | range => rfl

/-- A column that is compared with is refused if it is blank, and then for what is wrong with it. -/
theorem ofParts_column_of_mem {expr : String} (hop : op ∈ Class.comparison.members) :
    ofParts field op (some (.column expr)) =
      if Text.allBlank expr.toList then .error .blankReference
      else (quoteColumn expr).map (.columns field op) := by
  unfold ofParts
  rw [cls_eq_iff.mpr hop]

/-- A column behind the operator is refused unless it is compared, not blank, and quoted. -/
theorem ofParts_column_eq_error_iff {expr : String} :
    ofParts field op (some (.column expr)) = .error e ↔ op.Rejects (some (.column expr)) e := by
  constructor
  · intro h
    by_cases hop : op ∈ Class.comparison.members
    · rw [ofParts_column_of_mem hop] at h
      split at h
      · next hblank =>
        cases h
        exact .blankColumn hop hblank
      · next hblank => exact .unquotable hop (Bool.eq_false_iff.mpr hblank) (map_eq_error.mp h)
    · rw [ofParts_column_of_not_mem hop] at h
      cases h
      exact .columns hop
  · intro h
    cases h with
    | columns hop => exact ofParts_column_of_not_mem hop
    | blankColumn hop hblank => rw [ofParts_column_of_mem hop, if_pos hblank]
    | unquotable hop hblank hcolumn =>
      rw [ofParts_column_of_mem hop, if_neg (Bool.eq_false_iff.mp hblank), hcolumn]
      rfl
    -- the other classes say nothing of columns
    | unexpected _ hne | noList _ hne | noRange _ hne | noPattern _ hne | noScalar _ hne =>
      exact absurd rfl (hne expr)

/-- A null check takes nothing. -/
theorem ofParts_nullCheck_eq_error_iff (hop : op ∈ Class.nullCheck.members)
    (hcolumn : ∀ expr, o ≠ .column expr) :
    ofParts field op (some o) = .error e ↔ e = .valueUnexpected op := by
  unfold ofParts
  rw [cls_eq_iff.mpr hop]
  cases o with
  | column expr => exact absurd rfl (hcolumn expr)
  | value v | list values | select query => simp [eq_comm]

/-- A list test takes a list that is not empty. -/
theorem ofParts_list_eq_error_iff (hop : op ∈ Class.list.members)
    (hcolumn : ∀ expr, o ≠ .column expr) :
    ofParts field op (some o) = .error e ↔ o = .list [] ∧ e = .listEmpty op ∨
      (∀ values, o ≠ .list values) ∧ e = .listExpected op o.kind := by
  unfold ofParts
  rw [cls_eq_iff.mpr hop]
  cases o with
  | column expr => exact absurd rfl (hcolumn expr)
  | list values => cases values <;> simp [eq_comm]
  | value v | select query => simp [eq_comm]

/-- A range test takes a list of two. -/
theorem ofParts_range_eq_error_iff (hop : op ∈ Class.range.members)
    (hcolumn : ∀ expr, o ≠ .column expr) :
    ofParts field op (some o) = .error e ↔
      (∃ values, o = .list values ∧ values.length ≠ 2 ∧ e = .pairSize op values.length) ∨
      (∀ values, o ≠ .list values) ∧ e = .pairExpected op o.kind := by
  unfold ofParts
  rw [cls_eq_iff.mpr hop]
  cases o with
  | column expr => exact absurd rfl (hcolumn expr)
  | list values => rcases values with _ | ⟨low, _ | ⟨high, _ | ⟨v, values⟩⟩⟩ <;> simp [eq_comm]
  | value v | select query => simp [eq_comm]

/-- A pattern test takes a text. -/
theorem ofParts_pattern_eq_error_iff (hop : op ∈ Class.pattern.members)
    (hcolumn : ∀ expr, o ≠ .column expr) :
    ofParts field op (some o) = .error e ↔
      (∀ text, o ≠ .value (.text text)) ∧ e = .patternExpected op o.kind := by
  unfold ofParts
  rw [cls_eq_iff.mpr hop]
  cases o with
  | column expr => exact absurd rfl (hcolumn expr)
  | value v => cases v <;> simp [eq_comm]
  | list values | select query => simp [eq_comm]

/-- A comparison takes a value. -/
theorem ofParts_comparison_eq_error_iff (hop : op ∈ Class.comparison.members)
    (hcolumn : ∀ expr, o ≠ .column expr) :
    ofParts field op (some o) = .error e ↔
      (∀ v, o ≠ .value v) ∧ e = .scalarExpected op o.kind := by
  unfold ofParts
  rw [cls_eq_iff.mpr hop]
  cases o with
  | column expr => exact absurd rfl (hcolumn expr)
  | value v | list values | select query => simp [eq_comm]

/-- What stands behind an operator is refused as its class says. -/
theorem ofParts_eq_error_iff {operand : Option Operand} :
    ofParts field op operand = .error e ↔ op.Rejects operand e := by
  rcases operand with _ | o
  · exact ofParts_none_eq_error_iff
  by_cases hcolumn : ∃ expr, o = .column expr
  · obtain ⟨expr, rfl⟩ := hcolumn
    exact ofParts_column_eq_error_iff
  -- no column, so the lemma about the class of the operator applies
  have hne : ∀ expr, o ≠ .column expr := not_exists.mp hcolumn
  constructor
  · intro h
    cases hcls : op.cls with
    | nullCheck =>
      have hop := cls_eq_iff.mp hcls
      obtain rfl := (ofParts_nullCheck_eq_error_iff hop hne).mp h
      exact .unexpected hop hne
    | list =>
      have hop := cls_eq_iff.mp hcls
      rcases (ofParts_list_eq_error_iff hop hne).mp h with ⟨rfl, rfl⟩ | ⟨hlist, rfl⟩
      · exact .emptyList hop
      · exact .noList hop hne hlist
    | range =>
      have hop := cls_eq_iff.mp hcls
      rcases (ofParts_range_eq_error_iff hop hne).mp h with ⟨_, rfl, hlength, rfl⟩ | ⟨hlist, rfl⟩
      · exact .noPair hop hlength
      · exact .noRange hop hne hlist
    | pattern =>
      have hop := cls_eq_iff.mp hcls
      obtain ⟨htext, rfl⟩ := (ofParts_pattern_eq_error_iff hop hne).mp h
      exact .noPattern hop hne htext
    | comparison =>
      have hop := cls_eq_iff.mp hcls
      obtain ⟨hvalue, rfl⟩ := (ofParts_comparison_eq_error_iff hop hne).mp h
      exact .noScalar hop hne hvalue
  · intro h
    cases h with
    | columns | blankColumn | unquotable => exact absurd rfl (hne _)
    | unexpected hop => exact (ofParts_nullCheck_eq_error_iff hop hne).mpr rfl
    | emptyList hop => exact (ofParts_list_eq_error_iff hop hne).mpr (.inl ⟨rfl, rfl⟩)
    | noList hop _ hlist => exact (ofParts_list_eq_error_iff hop hne).mpr (.inr ⟨hlist, rfl⟩)
    | noPair hop hlength =>
      exact (ofParts_range_eq_error_iff hop hne).mpr (.inl ⟨_, rfl, hlength, rfl⟩)
    | noRange hop _ hlist => exact (ofParts_range_eq_error_iff hop hne).mpr (.inr ⟨hlist, rfl⟩)
    | noPattern hop _ htext => exact (ofParts_pattern_eq_error_iff hop hne).mpr ⟨htext, rfl⟩
    | noScalar hop _ hvalue => exact (ofParts_comparison_eq_error_iff hop hne).mpr ⟨hvalue, rfl⟩

end

/-! ### One test -/

/-- A subquery with something behind its operator is compared with that. -/
theorem classify_subquery_eq {query : Select} {text : String} {o : Operand} :
    classify (.test (.select query) text (some o)) = compareSubquery query text o := by
  unfold classify
  rfl

/-- A subquery can only be compared with a value. -/
theorem compareSubquery_eq_ok_iff {query : Select} {text : String} {o : Operand} {c : Condition} :
    compareSubquery query text o = .ok c ↔ Test.Fits ⟨.select query, text, some o⟩ c := by
  constructor
  · intro h
    obtain ⟨op, hop, h⟩ := bind_eq_ok.mp h
    have hspelled := operatorOf_eq_ok_iff.mp hop
    by_cases hcls : op.cls = .comparison
    · rw [if_neg (not_not_intro hcls)] at h
      cases o with
      | value v =>
        cases h
        exact .subquery hspelled (cls_eq_iff.mp hcls)
      | list values | column expr | select query => cases h
    · rw [if_pos hcls] at h
      cases h
  · intro h
    cases h with
    | column hnames =>
      obtain ⟨text, h, -⟩ := hnames
      cases h
    | subquery hspelled hmem =>
      refine bind_eq_ok.mpr ⟨_, operatorOf_eq_ok_iff.mpr hspelled, ?_⟩
      dsimp only
      rw [cls_eq_iff.mpr hmem]
      rfl

/-- Of a test of a subquery the operator is looked at first, and then what stands behind it. -/
theorem compareSubquery_eq_error_iff {query : Select} {text : String} {o : Operand} {e : Error} :
    compareSubquery query text o = .error e ↔ Test.Refused ⟨.select query, text, some o⟩ e := by
  constructor
  · intro h
    obtain h | ⟨op, hop, h⟩ := bind_eq_error.mp h
    · obtain ⟨hnone, rfl⟩ := operatorOf_eq_error_iff.mp h
      exact .subqueryOperator hnone
    have hspelled := operatorOf_eq_ok_iff.mp hop
    by_cases hcls : op.cls = .comparison
    · have hmem := cls_eq_iff.mp hcls
      rw [if_neg (not_not_intro hcls)] at h
      cases o with
      | value v => cases h
      | list values | column expr | select query =>
        cases h
        exact .subqueryOperand hspelled hmem nofun
    · rw [if_pos hcls] at h
      cases h
      exact .subqueryClass hspelled fun hmem => hcls (cls_eq_iff.mpr hmem)
  · intro h
    cases h with
    | subject hselect => cases hselect query rfl
    -- these are refusals of a column, and a subquery names none
    | operator hnames | operand hnames =>
      obtain ⟨text, h, -⟩ := hnames
      cases h
    | subqueryOperator hnone =>
      exact bind_eq_error.mpr (.inl (operatorOf_eq_error_iff.mpr ⟨hnone, rfl⟩))
    | subqueryClass hspelled hmem =>
      refine bind_eq_error.mpr (.inr ⟨_, operatorOf_eq_ok_iff.mpr hspelled, ?_⟩)
      exact if_pos fun hcls => hmem (cls_eq_iff.mp hcls)
    | subqueryOperand hspelled hmem hvalue =>
      refine bind_eq_error.mpr (.inr ⟨_, operatorOf_eq_ok_iff.mpr hspelled, ?_⟩)
      dsimp only
      rw [cls_eq_iff.mpr hmem]
      cases o with
      | value v => exact absurd rfl (hvalue v)
      | list values | column expr | select query => rfl

/-- A test compares a subquery with something, or its subject has to be a column. -/
theorem subject_cases (subject : Operand) (operand : Option Operand) :
    (∃ query o, subject = .select query ∧ operand = some o) ∨
      ∀ query, subject = .select query → operand = none := by
  cases operand with
  | none => exact .inr fun _ _ => rfl
  | some o =>
    cases subject with
    | select query => exact .inl ⟨query, o, rfl, rfl⟩
    | value v | list values | column expr => exact .inr nofun

/-- A test becomes a condition if it has one of the forms. -/
theorem classify_test_eq_ok_iff {subject : Operand} {text : String} {operand : Option Operand}
    {c : Condition} :
    classify (.test subject text operand) = .ok c ↔ Test.Fits ⟨subject, text, operand⟩ c := by
  obtain ⟨query, o, rfl, rfl⟩ | hselect := subject_cases subject operand
  · rw [classify_subquery_eq, compareSubquery_eq_ok_iff]
  · simp only [classify_test_eq hselect, bind_eq_ok, fieldOf_eq_ok_iff, operatorOf_eq_ok_iff,
      ofParts_eq_ok_iff]
    constructor
    · rintro ⟨field, hfield, op, hop, hform⟩
      exact .column hfield hop hform
    · intro h
      cases h with
      | column hfield hop hform => exact ⟨_, hfield, _, hop, hform⟩
      | subquery => cases hselect _ rfl

/-- A test that has none of them is refused for the first part that is wrong. -/
theorem classify_test_eq_error_iff {subject : Operand} {text : String} {operand : Option Operand}
    {e : Error} :
    classify (.test subject text operand) = .error e ↔ Test.Refused ⟨subject, text, operand⟩ e := by
  obtain ⟨query, o, rfl, rfl⟩ | hselect := subject_cases subject operand
  · rw [classify_subquery_eq, compareSubquery_eq_error_iff]
  · simp only [classify_test_eq hselect, bind_eq_error, fieldOf_eq_ok_iff, fieldOf_eq_error_iff,
      operatorOf_eq_ok_iff, operatorOf_eq_error_iff, ofParts_eq_error_iff]
    -- subject, operator and operand fail in this order
    constructor
    · rintro (hfield | ⟨field, hfield, ⟨hop, rfl⟩ | ⟨op, hop, hoperand⟩⟩)
      · exact .subject hselect hfield
      · exact .operator hfield hop
      · exact .operand hfield hop hoperand
    · intro h
      cases h with
      | subject _ hfield => exact .inl hfield
      | operator hfield hop => exact .inr ⟨_, hfield, .inl ⟨hop, rfl⟩⟩
      | operand hfield hop hoperand => exact .inr ⟨_, hfield, .inr ⟨_, hop, hoperand⟩⟩
      | subqueryOperator | subqueryClass | subqueryOperand => cases hselect _ rfl

end Condition

end SqlAssembly

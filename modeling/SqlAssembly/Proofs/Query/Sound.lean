import SqlAssembly.Proofs.ColumnExpr.Grammar
import SqlAssembly.Proofs.Filter.Test
import SqlAssembly.Statement.Select

namespace SqlAssembly

/-!
# Queries made by calls

A query that is put together by calls has nothing but quoted names in it, and every operator stands
where its class belongs.

* `Select.Made`, `Filter.Made` — what can be made by calls without SQL text of the caller's own;
* `Select.Sound`, `Condition.Sound` — what is known of it;
* `Test.Fits.sound` — the condition of a test;
* `Select.sound_of_made`, `Filter.sound_of_made` — every call keeps it so.
-/

open Grammar

/-! ### What is known -/

/-- The texts of a join are quoted. -/
structure Join.Sound (j : Join) : Prop where
  table : IsTable j.table.toList
  left : Generates .expression j.left.toList
  right : Generates .expression j.right.toList

mutual

/-- The texts of a query are quoted, and its entries and conditions are sound. -/
inductive Select.Sound : Select → Prop
  | intro {q : Select} (fields : ∀ f ∈ q.fields, f.Sound) (tables : ∀ t ∈ q.tables, IsTable t.toList)
    (joins : ∀ j ∈ q.joins, j.Sound) (clauses : ∀ w ∈ q.clauses, ∀ c ∈ w.conditions, c.Sound)
    (order : ∀ o ∈ q.order, Generates .expression o.1.toList)
    (alias? : ∀ name ∈ q.alias?, IsName name.toList) : q.Sound

/-- The text of an entry is quoted. -/
inductive Field.Sound : Field → Prop
  | column {sql : String} (hsql : Generates .expression sql.toList) : Field.Sound (.column sql)
  | call (call : FunctionCall) : Field.Sound (.call call)
  | subquery {query : Select} (hquery : query.Sound) : Field.Sound (.subquery query)

/-- The columns of a condition are quoted, the operators fit, and no text is the caller's own. -/
inductive Condition.Sound : Condition → Prop
  | compare {field : String} {op : Operator} (value : Value)
    (hfield : Generates .expression field.toList) (hop : op.cls = .comparison) :
    Condition.Sound (.compare field op value)
  | nullCheck {field : String} {op : Operator}
    (hfield : Generates .expression field.toList) (hop : op.cls = .nullCheck) :
    Condition.Sound (.nullCheck field op)
  | inList {field : String} {op : Operator} (values : List Value)
    (hfield : Generates .expression field.toList) (hop : op.cls = .list) :
    Condition.Sound (.inList field op values)
  | between {field : String} {op : Operator} (low high : Value)
    (hfield : Generates .expression field.toList) (hop : op.cls = .range) :
    Condition.Sound (.between field op low high)
  | pattern {field : String} {op : Operator} (pattern : String)
    (hfield : Generates .expression field.toList) (hop : op.cls = .pattern) :
    Condition.Sound (.pattern field op pattern)
  | columns {field column : String} {op : Operator}
    (hfield : Generates .expression field.toList) (hop : op.cls = .comparison)
    (hcolumn : Generates .expression column.toList) : Condition.Sound (.columns field op column)
  | subquery {query : Select} {op : Operator} (value : Value)
    (hquery : query.Sound) (hop : op.cls = .comparison) :
    Condition.Sound (.subquery query op value)
  | group (combinator : Combinator) {conditions : List Condition}
    (hconditions : ∀ c ∈ conditions, c.Sound) : Condition.Sound (.group combinator conditions)

end

/-! ### What can be made -/

mutual

/-- Queries made by calls. -/
inductive Select.Made : Select → Prop
  | new : Select.Made {}
  | field {q : Select} {spec : FieldSpec} (hq : q.Made) (hspec : spec.Made) :
    Select.Made (q.field spec)
  | table {q : Select} (expr : String) (hq : q.Made) : Select.Made (q.table expr)
  | join {q : Select} (kind : JoinKind) (table left right : String) (hq : q.Made) :
    Select.Made (q.join kind table left right)
  | filters {q : Select} {filters : List Filter} (hq : q.Made) (hfilters : ∀ f ∈ filters, f.Made) :
    Select.Made (q.filterAll filters)
  | classified {q : Select} {f : Filter} {c : Condition} (hq : q.Made) (hf : f.Made)
    (hc : Condition.classify f = .ok c) : Select.Made (q.filterBy c)
  | orderBy {q : Select} (column : String) (direction : Direction) (hq : q.Made) :
    Select.Made (q.orderBy column direction)
  | limit {q : Select} (n : UInt64) (hq : q.Made) : Select.Made (q.withLimit n)
  | offset {q : Select} (n : UInt64) (hq : q.Made) : Select.Made (q.withOffset n)
  | alias {q : Select} (name : String) (hq : q.Made) : Select.Made (q.withAlias name)
  | options {q : Select} (options : BuildOptions) (hq : q.Made) :
    Select.Made (q.withOptions options)

/-- Entries of a select list, any query in them made by calls. -/
inductive FieldSpec.Made : FieldSpec → Prop
  | column (expr : String) : FieldSpec.Made (.column expr)
  | call (call : FunctionCall) : FieldSpec.Made (.call call)
  | subquery {query : Select} (hquery : query.Made) : FieldSpec.Made (.subquery query)

/-- Operands, any query in them made by calls. -/
inductive Operand.Made : Operand → Prop
  | value (v : Value) : Operand.Made (.value v)
  | list (vs : List Value) : Operand.Made (.list vs)
  | column (expr : String) : Operand.Made (.column expr)
  | select {query : Select} (hquery : query.Made) : Operand.Made (.select query)

/-- Filters without SQL text of the caller's own. -/
inductive Filter.Made : Filter → Prop
  | test {subject : Operand} {operand : Option Operand} (op : String) (hsubject : subject.Made)
    (hoperand : ∀ o ∈ operand, o.Made) : Filter.Made (.test subject op operand)
  | group {filters : List Filter} (combinator : Combinator) (hfilters : ∀ f ∈ filters, f.Made) :
    Filter.Made (.group combinator filters)

end

/-- Conditions of such filters. -/
def Condition.Made (c : Condition) : Prop := ∃ f : Filter, f.Made ∧ Condition.classify f = .ok c

/-- Groups of such conditions come from groups of filters. -/
theorem Condition.Made.group (combinator : Combinator) {conditions : List Condition}
    (h : ∀ c ∈ conditions, c.Made) : (Condition.group combinator conditions).Made := by
  suffices hfilters : ∃ filters, (∀ f ∈ filters, f.Made) ∧ classifyAll filters = .ok conditions by
    obtain ⟨filters, hmade, hall⟩ := hfilters
    refine ⟨.group combinator filters, .group combinator hmade, ?_⟩
    rw [classify, hall]
    rfl
  induction conditions with
  | nil => exact ⟨[], List.forall_mem_nil _, by rw [classifyAll]; rfl⟩
  | cons c cs ih =>
    rw [List.forall_mem_cons] at h
    obtain ⟨f, hf, hc⟩ := h.1
    obtain ⟨filters, hmade, hall⟩ := ih h.2
    refine ⟨f :: filters, List.forall_mem_cons.mpr ⟨hf, hmade⟩, ?_⟩
    rw [classifyAll, hc, hall]
    rfl

/-! ### What tests become -/

/-- The column that an operand names is one of the grammar. -/
theorem Operand.Names.generates {o : Operand} {field : String} (h : o.Names field) :
    Generates .expression field.toList := by
  obtain ⟨text, -, -, hfield⟩ := h
  exact generates_of_quoteColumn hfield

/-- Every form of test has an operator of its own class. -/
theorem Operator.Tests.sound {field : String} {op : Operator} {operand : Option Operand}
    {c : Condition} (h : op.Tests field operand c) (hfield : Generates .expression field.toList) :
    c.Sound := by
  cases h with
  | nullCheck hop => exact .nullCheck hfield (Operator.cls_eq_iff.mpr hop)
  | inList hop => exact .inList _ hfield (Operator.cls_eq_iff.mpr hop)
  | between hop => exact .between _ _ hfield (Operator.cls_eq_iff.mpr hop)
  | pattern hop => exact .pattern _ hfield (Operator.cls_eq_iff.mpr hop)
  | compare hop => exact .compare _ hfield (Operator.cls_eq_iff.mpr hop)
  | columns hop _ hcolumn =>
    exact .columns hfield (Operator.cls_eq_iff.mpr hop) (generates_of_quoteColumn hcolumn)

/-- A test becomes a sound condition, if the query that it compares is sound. -/
theorem Test.Fits.sound {t : Test} {c : Condition} (h : t.Fits c)
    (hquery : ∀ query, t.subject = .select query → query.Sound) : c.Sound := by
  cases h with
  | column hnames _ htests => exact htests.sound hnames.generates
  | subquery _ hop => exact .subquery _ (hquery _ rfl) (Operator.cls_eq_iff.mpr hop)

/-! ### What filters become -/

namespace Condition

/-- The conditions of filters are those of the filters one by one. -/
theorem exists_classify_of_mem {filters : List Filter} {cs : List Condition}
    (h : classifyAll filters = .ok cs) {c : Condition} (hc : c ∈ cs) :
    ∃ f ∈ filters, classify f = .ok c := by
  induction filters generalizing cs with
  | nil =>
    rw [classifyAll] at h
    cases h
    cases hc
  | cons f filters ih =>
    rw [classifyAll] at h
    obtain ⟨first, hfirst, h⟩ := bind_eq_ok.mp h
    obtain ⟨rest, hrest, h⟩ := bind_eq_ok.mp h
    cases h
    -- the first condition is that of the first filter
    rcases List.mem_cons.mp hc with rfl | hc
    · exact ⟨f, List.mem_cons_self, hfirst⟩
    · obtain ⟨g, hg, hclassify⟩ := ih hrest hc
      exact ⟨g, List.mem_cons_of_mem _ hg, hclassify⟩

/-- The conditions of a clause are those of its filters. -/
theorem exists_classify_of_mem_ofFilters {filters : List Filter} {w : WhereClause}
    (h : WhereClause.ofFilters filters = .ok w) {c : Condition} (hc : c ∈ w.conditions) :
    ∃ f ∈ filters, classify f = .ok c := by
  obtain ⟨cs, hcs, h⟩ := bind_eq_ok.mp h
  cases cs with
  | nil => cases h
  | cons first rest =>
    cases h
    exact exists_classify_of_mem hcs hc

end Condition

/-! ### Steps -/

namespace Select

variable {q : Select}

/-- A step keeps a query sound if what it adds when nothing is wrong does so. -/
theorem Sound.add {α : Type} {part : Except Error α} {put : α → Select} (hq : q.Sound)
    (hput : ∀ x, part = .ok x → (put x).Sound) : (q.add part put).Sound := by
  cases part with
  | ok x => exact hput x rfl
  | error e =>
    obtain ⟨fields, tables, joins, clauses, order, alias?⟩ := hq
    exact ⟨fields, tables, joins, clauses, order, alias?⟩

/-- A sound entry may be added. -/
theorem Sound.field {spec : FieldSpec} (hq : q.Sound)
    (hspec : ∀ f, spec.field = .ok f → f.Sound) : (q.field spec).Sound := by
  refine hq.add fun f hf => ?_
  obtain ⟨fields, tables, joins, clauses, order, alias?⟩ := hq
  exact ⟨List.forall_mem_append.mpr ⟨fields, List.forall_mem_singleton.mpr (hspec f hf)⟩,
    tables, joins, clauses, order, alias?⟩

/-- A table may be added: it is quoted, or it is an error. -/
theorem Sound.table (expr : String) (hq : q.Sound) : (q.table expr).Sound := by
  refine hq.add fun t ht => ?_
  obtain ⟨fields, tables, joins, clauses, order, alias?⟩ := hq
  have htable : IsTable t.toList := isTable_of_quoteTable ht
  exact ⟨fields, List.forall_mem_append.mpr ⟨tables, List.forall_mem_singleton.mpr htable⟩, joins,
    clauses, order, alias?⟩

/-- A join is made of a quoted table and two quoted columns. -/
theorem sound_of_joinOf {kind : JoinKind} {table left right : String} {j : Join}
    (h : joinOf kind table left right = .ok j) : j.Sound := by
  obtain ⟨t, ht, h⟩ := bind_eq_ok.mp h
  obtain ⟨l, hl, h⟩ := bind_eq_ok.mp h
  obtain ⟨r, hr, h⟩ := bind_eq_ok.mp h
  cases h
  exact ⟨isTable_of_quoteTable ht, generates_of_quoteColumn hl, generates_of_quoteColumn hr⟩

/-- A join may be added. -/
theorem Sound.join (kind : JoinKind) (table left right : String) (hq : q.Sound) :
    (q.join kind table left right).Sound := by
  refine hq.add fun j hj => ?_
  obtain ⟨fields, tables, joins, clauses, order, alias?⟩ := hq
  have hjoin : j.Sound := sound_of_joinOf hj
  exact ⟨fields, tables, List.forall_mem_append.mpr ⟨joins, List.forall_mem_singleton.mpr hjoin⟩,
    clauses, order, alias?⟩

/-- A clause of sound conditions may be added. -/
theorem Sound.addClause {clause : Except Error WhereClause} (hq : q.Sound)
    (hclause : ∀ w, clause = .ok w → ∀ c ∈ w.conditions, c.Sound) :
    (q.addClause clause).Sound := by
  refine hq.add fun w hw => ?_
  obtain ⟨fields, tables, joins, clauses, order, alias?⟩ := hq
  exact ⟨fields, tables, joins,
    List.forall_mem_append.mpr ⟨clauses, List.forall_mem_singleton.mpr (hclause w hw)⟩, order, alias?⟩

/-- A column to order by may be added. -/
theorem Sound.orderBy (column : String) (direction : Direction) (hq : q.Sound) :
    (q.orderBy column direction).Sound := by
  refine hq.add fun c hc => ?_
  obtain ⟨fields, tables, joins, clauses, order, alias?⟩ := hq
  have hcolumn : Generates .expression c.toList := generates_of_quoteColumn hc
  exact ⟨fields, tables, joins, clauses,
    List.forall_mem_append.mpr ⟨order, List.forall_mem_singleton.mpr hcolumn⟩, alias?⟩

/-- A name may be given. -/
theorem Sound.withAlias (name : String) (hq : q.Sound) : (q.withAlias name).Sound := by
  refine hq.add fun a ha => ?_
  obtain ⟨fields, tables, joins, clauses, order, alias?⟩ := hq
  have hname : IsName a.toList := isName_of_quote ha
  refine ⟨fields, tables, joins, clauses, order, ?_⟩
  intro name hmem
  obtain rfl := Option.some.inj hmem
  exact hname

/-- What is not rendered as text does not matter. -/
theorem Sound.congr {q' : Select} (hq : q.Sound) (hfields : q'.fields = q.fields)
    (htables : q'.tables = q.tables) (hjoins : q'.joins = q.joins)
    (hclauses : q'.clauses = q.clauses) (horder : q'.order = q.order)
    (halias : q'.alias? = q.alias?) : q'.Sound := by
  obtain ⟨fields, tables, joins, clauses, order, alias?⟩ := hq
  exact ⟨hfields ▸ fields, htables ▸ tables, hjoins ▸ joins, hclauses ▸ clauses, horder ▸ order,
    halias ▸ alias?⟩

theorem sound_new : Select.Sound {} := ⟨nofun, nofun, nofun, nofun, nofun, nofun⟩

end Select

/-! ### Everything that is made by calls is sound -/

mutual

/-- Every chain of calls gives a sound query. -/
theorem Select.sound_of_made : ∀ {q : Select}, q.Made → q.Sound
  | _, .new => Select.sound_new
  | _, .field hq hspec =>
    (Select.sound_of_made hq).field fun _ hf => FieldSpec.sound_of_made hspec hf
  | _, .table expr hq => (Select.sound_of_made hq).table expr
  | _, .join kind table left right hq => (Select.sound_of_made hq).join kind table left right
  | _, .filters hq hfilters => by
    refine (Select.sound_of_made hq).addClause fun w hw c hc => ?_
    obtain ⟨f, hf, hclassify⟩ := Condition.exists_classify_of_mem_ofFilters hw hc
    exact Filter.sound_of_made (hfilters f hf) hclassify
  | _, .classified hq hf hclassify => by
    refine (Select.sound_of_made hq).addClause fun w hw c hc => ?_
    cases hw
    obtain rfl := List.mem_singleton.mp hc
    exact Filter.sound_of_made hf hclassify
  | _, .orderBy column direction hq => (Select.sound_of_made hq).orderBy column direction
  -- the setters below change no text of the query
  | _, .limit _ hq => (Select.sound_of_made hq).congr rfl rfl rfl rfl rfl rfl
  | _, .offset _ hq => (Select.sound_of_made hq).congr rfl rfl rfl rfl rfl rfl
  | _, .alias name hq => (Select.sound_of_made hq).withAlias name
  | _, .options _ hq => (Select.sound_of_made hq).congr rfl rfl rfl rfl rfl rfl

/-- The entries that are made are sound. -/
theorem FieldSpec.sound_of_made : ∀ {spec : FieldSpec}, spec.Made →
    ∀ {f : Field}, spec.field = .ok f → f.Sound
  | _, .column expr, _, hf => by
    obtain ⟨sql, hsql, rfl⟩ := map_eq_ok.mp hf
    exact .column (generates_of_quoteColumn hsql)
  | _, .call call, _, hf => by
    obtain ⟨sql, -, rfl⟩ := map_eq_ok.mp hf
    exact .call call
  | _, .subquery hquery, _, hf => by
    cases hf
    exact .subquery (Select.sound_of_made hquery)

/-- A query as an operand is sound if it is made by calls. -/
theorem Operand.sound_of_made : ∀ {operand : Operand}, operand.Made →
    ∀ {query : Select}, operand = .select query → query.Sound
  | _, .select hquery, _, h => by
    cases h
    exact Select.sound_of_made hquery

/-- Filters without SQL text of the caller's own become sound conditions. -/
theorem Filter.sound_of_made : ∀ {f : Filter}, f.Made →
    ∀ {c : Condition}, Condition.classify f = .ok c → c.Sound
  | _, @Filter.Made.test subject operand op hsubject _, _, hc => by
    have hselect : ∀ query, subject = .select query → query.Sound := fun _ =>
      Operand.sound_of_made hsubject
    exact (Condition.classify_test_eq_ok_iff.mp hc).sound hselect
  | _, .group combinator hfilters, _, hc => by
    rw [Condition.classify] at hc
    obtain ⟨cs, hcs, hc⟩ := bind_eq_ok.mp hc
    cases hc
    refine .group combinator fun c hc => ?_
    obtain ⟨f, hf, hclassify⟩ := Condition.exists_classify_of_mem hcs hc
    exact Filter.sound_of_made (hfilters f hf) hclassify

end

end SqlAssembly

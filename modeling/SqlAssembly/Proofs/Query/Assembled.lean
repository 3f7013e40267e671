import SqlAssembly.Proofs.Query.Faults
import SqlAssembly.Proofs.Query.Sound
import SqlAssembly.Statement.Select

namespace SqlAssembly

/-!
# Queries put together by calls

Callers put queries together by calls only.  The conditions may be filters of any kind, with SQL
text of the caller's own, and also conditions that the caller wrote without a check.  Even so, a
call in a select list is only ever kept after it was written once without an error.

* `Select.Assembled`, `Filter.Assembled`, `Condition.Assembled` — whatever callers can put together;
* `Select.callsFine_of_assembled`, `Filter.callsFine_of_assembled` — the calls in it can be written.
-/

/-! ### What callers can put together -/

mutual

/-- Queries put together by calls. -/
inductive Select.Assembled : Select → Prop
  | new : Select.Assembled {}
  | field {q : Select} {spec : FieldSpec} (hq : q.Assembled) (hspec : spec.Assembled) :
    Select.Assembled (q.field spec)
  | table {q : Select} (expr : String) (hq : q.Assembled) : Select.Assembled (q.table expr)
  | join {q : Select} (kind : JoinKind) (table left right : String) (hq : q.Assembled) :
    Select.Assembled (q.join kind table left right)
  | filters {q : Select} {filters : List Filter} (hq : q.Assembled)
    (hfilters : ∀ f ∈ filters, f.Assembled) : Select.Assembled (q.filterAll filters)
  | condition {q : Select} {c : Condition} (hq : q.Assembled) (hc : c.Assembled) :
    Select.Assembled (q.filterBy c)
  | orderBy {q : Select} (column : String) (direction : Direction) (hq : q.Assembled) :
    Select.Assembled (q.orderBy column direction)
  | limit {q : Select} (n : UInt64) (hq : q.Assembled) : Select.Assembled (q.withLimit n)
  | offset {q : Select} (n : UInt64) (hq : q.Assembled) : Select.Assembled (q.withOffset n)
  | alias {q : Select} (name : String) (hq : q.Assembled) : Select.Assembled (q.withAlias name)
  | options {q : Select} (options : BuildOptions) (hq : q.Assembled) :
    Select.Assembled (q.withOptions options)

/-- Entries of a select list, with such queries. -/
inductive FieldSpec.Assembled : FieldSpec → Prop
  | column (expr : String) : FieldSpec.Assembled (.column expr)
  | call (call : FunctionCall) : FieldSpec.Assembled (.call call)
  | subquery {query : Select} (hquery : query.Assembled) : FieldSpec.Assembled (.subquery query)

/-- Operands, with such queries. -/
inductive Operand.Assembled : Operand → Prop
  | value (v : Value) : Operand.Assembled (.value v)
  | list (vs : List Value) : Operand.Assembled (.list vs)
  | column (expr : String) : Operand.Assembled (.column expr)
  | select {query : Select} (hquery : query.Assembled) : Operand.Assembled (.select query)

/-- Filters of any kind, with such queries. -/
inductive Filter.Assembled : Filter → Prop
  | test {subject : Operand} {operand : Option Operand} (op : String)
    (hsubject : subject.Assembled) (hoperand : ∀ o ∈ operand, o.Assembled) :
    Filter.Assembled (.test subject op operand)
  | group {filters : List Filter} (combinator : Combinator)
    (hfilters : ∀ f ∈ filters, f.Assembled) : Filter.Assembled (.group combinator filters)
  | raw (sql : String) : Filter.Assembled (.raw sql)

/-- Conditions of any kind, with such queries. -/
inductive Condition.Assembled : Condition → Prop
  | plain {c : Condition} (hc : c.selects = []) : Condition.Assembled c
  | subquery {query : Select} (op : Operator) (value : Value) (hquery : query.Assembled) :
    Condition.Assembled (.subquery query op value)
  | group {conditions : List Condition} (combinator : Combinator)
    (hconditions : ∀ c ∈ conditions, c.Assembled) :
    Condition.Assembled (.group combinator conditions)

end

/-! ### Calls that can be written -/

/-- Tests of columns have no queries in them. -/
theorem Operator.Tests.selects_eq_nil {field : String} {op : Operator} {operand : Option Operand}
    {c : Condition} (h : op.Tests field operand c) : c.selects = [] := by
  cases h <;> rfl

/-- One more clause. -/
theorem WhereClause.callsFine_append {ws : List WhereClause} {w : WhereClause}
    (hws : Select.CallsFine (WhereClause.allSelects ws))
    (hw : ∀ c ∈ w.conditions, Select.CallsFine c.selects) :
    Select.CallsFine (WhereClause.allSelects (ws ++ [w])) := by
  intro q hq
  obtain ⟨v, hv, c, hc, hmem⟩ := WhereClause.mem_allSelects.mp hq
  rcases List.mem_append.mp hv with hv | hv
  · exact hws q (WhereClause.mem_allSelects.mpr ⟨v, hv, c, hc, hmem⟩)
  · obtain rfl := List.mem_singleton.mp hv
    exact hw c hc q hmem

namespace Select

variable {q : Select}

/-- The calls in the entries of the query can be written, and those of the queries in it. -/
def AllCallsFine (q : Select) : Prop := CallsFine q.selects

/-- The calls of a query can be written if those of its own entries can, and those of the queries in
its parts. -/
theorem allCallsFine_iff :
    q.AllCallsFine ↔ Field.CallsFine q.fields ∧ CallsFine (Field.allSelects q.fields) ∧
      CallsFine (WhereClause.allSelects q.clauses) := by
  rw [AllCallsFine, selects_eq]
  constructor
  · intro h
    have hparts : CallsFine (Field.allSelects q.fields ++ WhereClause.allSelects q.clauses) :=
      fun p hp => h p (List.mem_cons_of_mem q hp)
    exact ⟨h q List.mem_cons_self, hparts.left, hparts.right⟩
  · rintro ⟨hq, hfields, hclauses⟩ p hp
    rw [List.mem_cons, List.mem_append] at hp
    rcases hp with rfl | hp | hp
    · exact hq
    · exact hfields p hp
    · exact hclauses p hp

/-- Only entries and clauses matter. -/
theorem AllCallsFine.congr {p : Select} (hq : q.AllCallsFine) (hfields : p.fields = q.fields)
    (hclauses : p.clauses = q.clauses) : p.AllCallsFine := by
  rw [allCallsFine_iff, hfields, hclauses]
  exact allCallsFine_iff.mp hq

/-- A step keeps the calls fine if what it adds when nothing is wrong does so. -/
theorem AllCallsFine.add {α : Type} {part : Except Error α} {put : α → Select}
    (hq : q.AllCallsFine) (hput : ∀ x, part = .ok x → (put x).AllCallsFine) :
    (q.add part put).AllCallsFine := by
  cases part with
  | ok x => exact hput x rfl
  | error e => exact hq.congr rfl rfl

/-- Adding an entry keeps this, if the calls in the entry can be written. -/
theorem AllCallsFine.field {spec : FieldSpec} (hq : q.AllCallsFine)
    (hspec : ∀ f, spec.field = .ok f → CallsFine f.selects) : (q.field spec).AllCallsFine := by
  refine hq.add fun f hf => ?_
  obtain ⟨hcalls, hfields, hclauses⟩ := allCallsFine_iff.mp hq
  rw [allCallsFine_iff, Field.allSelects_eq_flatMap]
  refine ⟨?_, ?_, hclauses⟩
  · intro call hcall
    rcases List.mem_append.mp hcall with hcall | hcall
    · exact hcalls call hcall
    · -- an entry that is a call was written before it was added
      obtain rfl := List.mem_singleton.mp hcall
      cases spec with
      | column expr =>
        obtain ⟨sql, -, hsql⟩ := map_eq_ok.mp hf
        cases hsql
      | call given =>
        obtain ⟨sql, hsql, heq⟩ := map_eq_ok.mp hf
        obtain rfl := Field.call.inj heq
        exact ⟨sql, hsql⟩
      | subquery query => cases hf
  · rw [Field.allSelects_eq_flatMap] at hfields
    intro p hp
    rw [List.flatMap_append, List.flatMap_singleton, List.mem_append] at hp
    rcases hp with hp | hp
    · exact hfields p hp
    · exact hspec f hf p hp

/-- Adding a clause keeps this, if the calls in its conditions can be written. -/
theorem AllCallsFine.addClause {clause : Except Error WhereClause} (hq : q.AllCallsFine)
    (hclause : ∀ w, clause = .ok w → ∀ c ∈ w.conditions, CallsFine c.selects) :
    (q.addClause clause).AllCallsFine := by
  refine hq.add fun w hw => ?_
  obtain ⟨hcalls, hfields, hclauses⟩ := allCallsFine_iff.mp hq
  exact allCallsFine_iff.mpr
    ⟨hcalls, hfields, WhereClause.callsFine_append hclauses (hclause w hw)⟩

end Select

mutual

/-- In a query put together by calls, every call in a select list can be written. -/
theorem Select.callsFine_of_assembled : ∀ {q : Select}, q.Assembled → q.AllCallsFine
  | _, .new => Select.allCallsFine_iff.mpr ⟨nofun, nofun, nofun⟩
  | _, .field hq hspec =>
    (Select.callsFine_of_assembled hq).field fun _ hf => FieldSpec.callsFine_of_assembled hspec hf
  | _, .table _ hq => (Select.callsFine_of_assembled hq).add fun _ _ =>
    (Select.callsFine_of_assembled hq).congr rfl rfl
  | _, .join _ _ _ _ hq => (Select.callsFine_of_assembled hq).add fun _ _ =>
    (Select.callsFine_of_assembled hq).congr rfl rfl
  | _, .filters hq hfilters => by
    refine (Select.callsFine_of_assembled hq).addClause fun w hw c hc => ?_
    obtain ⟨f, hf, hclassify⟩ := Condition.exists_classify_of_mem_ofFilters hw hc
    exact Filter.callsFine_of_assembled (hfilters f hf) hclassify
  | _, .condition hq hcondition => by
    -- one condition is a clause of its own
    have hfine := Condition.callsFine_of_assembled hcondition
    refine (Select.callsFine_of_assembled hq).addClause fun w hw c hc => ?_
    cases hw
    rwa [List.mem_singleton.mp hc]
  | _, .orderBy _ _ hq => (Select.callsFine_of_assembled hq).add fun _ _ =>
    (Select.callsFine_of_assembled hq).congr rfl rfl
  | _, .limit _ hq => (Select.callsFine_of_assembled hq).congr rfl rfl
  | _, .offset _ hq => (Select.callsFine_of_assembled hq).congr rfl rfl
  | _, .alias _ hq => (Select.callsFine_of_assembled hq).add fun _ _ =>
    (Select.callsFine_of_assembled hq).congr rfl rfl
  | _, .options _ hq => (Select.callsFine_of_assembled hq).congr rfl rfl

/-- The same for an entry that is given by the caller. -/
theorem FieldSpec.callsFine_of_assembled : ∀ {spec : FieldSpec}, spec.Assembled →
    ∀ {f : Field}, spec.field = .ok f → Select.CallsFine f.selects
  | _, .column expr, _, hf => by
    obtain ⟨sql, -, rfl⟩ := map_eq_ok.mp hf
    exact nofun
  | _, .call call, _, hf => by
    obtain ⟨sql, -, rfl⟩ := map_eq_ok.mp hf
    exact nofun
  | _, .subquery hquery, _, hf => by
    cases hf
    exact Select.callsFine_of_assembled hquery

/-- The same for a query that is an operand. -/
theorem Operand.callsFine_of_assembled : ∀ {operand : Operand}, operand.Assembled →
    ∀ {query : Select}, operand = .select query → query.AllCallsFine
  | _, .select hquery, _, h => by
    cases h
    exact Select.callsFine_of_assembled hquery

/-- Filters of any kind become conditions in which every call can be written. -/
theorem Filter.callsFine_of_assembled : ∀ {f : Filter}, f.Assembled →
    ∀ {c : Condition}, Condition.classify f = .ok c → Select.CallsFine c.selects
  | _, @Filter.Assembled.test subject operand op hsubject _, _, hc => by
    have hselect : ∀ {query}, subject = .select query → query.AllCallsFine :=
      Operand.callsFine_of_assembled hsubject
    -- only the test of a subquery has a query in it
    cases Condition.classify_test_eq_ok_iff.mp hc with
    | column _ _ htests =>
      rw [htests.selects_eq_nil]
      exact nofun
    | subquery => exact hselect rfl
  | _, .group combinator hfilters, _, hc => by
    rw [Condition.classify] at hc
    obtain ⟨cs, hcs, hc⟩ := bind_eq_ok.mp hc
    cases hc
    intro q hq
    rw [Condition.selects, Condition.allSelects_eq_flatMap, List.mem_flatMap] at hq
    obtain ⟨c, hc, hq⟩ := hq
    obtain ⟨f, hf, hclassify⟩ := Condition.exists_classify_of_mem hcs hc
    exact Filter.callsFine_of_assembled (hfilters f hf) hclassify q hq
  | _, .raw sql, _, hc => by
    rw [Condition.classify] at hc
    cases hc
    exact nofun

/-- The same for a condition that the caller wrote without a check. -/
theorem Condition.callsFine_of_assembled : ∀ {c : Condition}, c.Assembled →
    Select.CallsFine c.selects
  | _, .plain hc => by
    rw [hc]
    exact nofun
  | _, .subquery _ _ hquery => Select.callsFine_of_assembled hquery
  | _, .group combinator hconditions => by
    intro q hq
    rw [Condition.selects, Condition.allSelects_eq_flatMap, List.mem_flatMap] at hq
    obtain ⟨c, hc, hq⟩ := hq
    exact Condition.callsFine_of_assembled (hconditions c hc) q hq

end

end SqlAssembly

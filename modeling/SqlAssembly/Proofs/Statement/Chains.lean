import SqlAssembly.Proofs.Filter.Classify
import SqlAssembly.Proofs.Statement.Calls

namespace SqlAssembly

/-!
# Calls and what is wrong with them

A statement is put together by calls, each of which checks what it is given and then changes one
part of the statement.

* `CallKind`, `CallKind.Part` — what a call is about, and that part of a statement;
* `Change` — a change of a statement that was checked, or the error that was found;
* `Select.Call`, `CreateTable.Call` — the calls on a query and on a CREATE TABLE;
* `Call.kind`, `Call.error?`, `Call.changes` — for each kind of statement, what a call is about,
  what is wrong with its arguments, and the changes that it makes.
-/

/-! ### What calls are about -/

/-- What a call is about. -/
inductive CallKind where
  | field
  | table
  | join
  | condition
  | order
  | value
  | column
  | limit
  | offset
  | named
  | options
  | presence
  deriving DecidableEq, Repr

namespace CallKind

/-- The part of a statement that calls of a kind are about. -/
abbrev Part : CallKind → Type
  | .field => List Field
  | .table => List String
  | .join => List Join
  | .condition => List WhereClause
  | .order => List (String × Direction)
  | .value => List (String × Value)
  | .column => List (String × String)
  | .limit | .offset => Option UInt64
  | .named => Option String
  | .options => BuildOptions
  | .presence => Bool

/-- The part of a statement that does not have such a part. -/
def absent : (k : CallKind) → k.Part
  | .field | .table | .join | .condition | .order | .value | .column => []
  | .limit | .offset | .named => none
  | .options => {}
  | .presence => false

/-- Of the calls of such a kind the last one counts; those of another kind add up. -/
def overwrites : CallKind → Bool
  | .limit | .offset | .named | .options | .presence => true
  | .field | .table | .join | .condition | .order | .value | .column => false

end CallKind

/-! ### Changes -/

/-- A change of a statement, if nothing is wrong with it. -/
abbrev Change (σ : Type) := Except Error (σ → σ)

namespace Change

variable {σ : Type} {record : σ → Error → σ}

/-- The statement after a change, or with the error. -/
def apply (record : σ → Error → σ) (s : σ) : Change σ → σ
  | .ok f => f s
  | .error e => record s e

/-- After changes that do not touch the error, the error is the one before or else the first one of
the changes. -/
theorem fault_foldl_apply (fault : σ → Option Error)
    (hrecord : ∀ s e, fault (record s e) = (fault s).or (some e))
    {changes : List (Change σ)} (hchanges : ∀ f, .ok f ∈ changes → ∀ s, fault (f s) = fault s)
    (s : σ) : fault (changes.foldl (apply record) s)
      = (fault s).or (changes.findSome? failureOf) := by
  induction changes generalizing s with
  | nil => exact (Option.or_none).symm
  | cons x rest ih =>
    have hrest := ih (fun f hf => hchanges f (List.mem_cons_of_mem _ hf)) (apply record s x)
    rw [List.foldl_cons, hrest, List.findSome?_cons]
    -- a change leaves the error alone, and an error is recorded unless there was one
    cases x with
    | ok f =>
      rw [apply, hchanges f List.mem_cons_self]
      rfl
    | error e =>
      rw [apply, hrecord, Option.or_assoc]
      rfl

/-- Of a single change its own error counts. -/
theorem findSome?_singleton (x : Change σ) : [x].findSome? failureOf = failureOf x := by
  cases x <;> rfl

end Change

/-- The first error of filters that are looked at one by one. -/
def Filter.errorOfAll (fs : List Filter) : Option Error :=
  if fs = [] then some .whereEmpty else fs.findSome? fun f => failureOf (Condition.classify f)

/-- Filters fail with the error of the first one that is refused. -/
theorem Condition.failureOf_classifyAll (fs : List Filter) :
    failureOf (classifyAll fs) = fs.findSome? fun f => failureOf (classify f) := by
  induction fs with
  | nil => rfl
  | cons f rest ih =>
    -- behind a filter that is accepted the others decide
    have hrest : ∀ c : Condition,
        failureOf (do return c :: (← classifyAll rest)) = failureOf (classifyAll rest) := by
      intro c
      have hpure : ∀ cs, failureOf (pure (c :: cs) : Except Error (List Condition)) = none :=
        fun _ => rfl
      exact (failureOf_bind hpure).trans Option.or_none
    rw [classifyAll, failureOf_bind hrest, ih, List.findSome?_cons]
    cases failureOf (classify f) <;> rfl

/-- A clause fails for want of filters, or with the first one that is refused. -/
theorem Filter.failureOf_ofFilters (fs : List Filter) :
    failureOf (WhereClause.ofFilters fs) = errorOfAll fs := by
  cases fs with
  | nil => rfl
  | cons f rest =>
    have hall := Condition.failureOf_classifyAll (f :: rest)
    rw [WhereClause.ofFilters, errorOfAll, if_neg (List.cons_ne_nil _ _), ← hall]
    cases hconditions : Condition.classifyAll (f :: rest) with
    | error e => rfl
    | ok conditions =>
      -- every filter becomes a condition, so there is one
      have hlength := ((Condition.classifyAll_eq_ok_iff _ _).mp hconditions).length_eq
      cases conditions with
      | nil => cases hlength
      | cons c rest => rfl

/-! ### Calls -/

namespace Select

/-- A call on a query. -/
inductive Call where
  | field (spec : FieldSpec)
  | fields (specs : List FieldSpec)
  | table (expr : String)
  | join (kind : JoinKind) (table left right : String)
  | filters (fs : List Filter)
  /-- A condition that the caller wrote without a check. -/
  | condition (c : Condition)
  | orderBy (column : String) (direction : Direction)
  | limit (n : UInt64)
  | offset (n : UInt64)
  | named (name : String)
  | options (o : BuildOptions)

/-- The query after a call. -/
def after (q : Select) : Call → Select
  | .field spec => q.field spec
  | .fields specs => q.addFields specs
  | .table expr => q.table expr
  | .join kind table left right => q.join kind table left right
  | .filters fs => q.filterAll fs
  | .condition c => q.filterBy c
  | .orderBy column direction => q.orderBy column direction
  | .limit n => q.withLimit n
  | .offset n => q.withOffset n
  | .named name => q.withAlias name
  | .options o => q.withOptions o

end Select

/-- What is wrong with an entry of a select list.  A query is not looked into before it is
rendered. -/
def FieldSpec.error? : FieldSpec → Option Error
  | .column expr => failureOf (quoteColumn expr)
  | .call f => failureOf f.sql
  | .subquery _ => none

/-- An entry fails with what is wrong with its own text. -/
theorem FieldSpec.failureOf_field (spec : FieldSpec) : failureOf spec.field = spec.error? := by
  cases spec with
  | column expr => exact failureOf_map _ _
  | call f => exact failureOf_map _ _
  | subquery query => rfl

namespace Select.Call

/-- What a call is about. -/
def kind : Call → CallKind
  | .field _ | .fields _ => .field
  | .table _ => .table
  | .join .. => .join
  | .filters _ | .condition _ => .condition
  | .orderBy .. => .order
  | .limit _ => .limit
  | .offset _ => .offset
  | .named _ => .named
  | .options _ => .options

/-- What is wrong with the arguments of a call. -/
def error? : Call → Option Error
  | .field spec => spec.error?
  | .fields specs => specs.findSome? FieldSpec.error?
  | .table expr => failureOf (QualifiedName.quoteTable expr)
  | .join _ expr left right =>
    (failureOf (QualifiedName.quoteTable expr)).or
      ((failureOf (quoteColumn left)).or (failureOf (quoteColumn right)))
  | .filters fs => Filter.errorOfAll fs
  | .orderBy column _ => failureOf (quoteColumn column)
  | .named name => failureOf (Identifier.quote name)
  | .condition _ | .limit _ | .offset _ | .options _ => none

/-- The change by an entry of the select list. -/
def fieldChange (spec : FieldSpec) : Change Select :=
  spec.field.map fun f q => { q with fields := q.fields ++ [f] }

/-- The changes that a call makes, one for each thing that it adds. -/
def changes : Call → List (Change Select)
  | .field spec => [fieldChange spec]
  | .fields specs => specs.map fieldChange
  | .table expr =>
    [(QualifiedName.quoteTable expr).map fun t q => { q with tables := q.tables ++ [t] }]
  | .join kind expr left right =>
    [(joinOf kind expr left right).map fun j q => { q with joins := q.joins ++ [j] }]
  | .filters fs =>
    [(WhereClause.ofFilters fs).map fun w q => { q with clauses := q.clauses ++ [w] }]
  | .condition c => [.ok fun q => { q with clauses := q.clauses ++ [⟨c, []⟩] }]
  | .orderBy column direction =>
    [(quoteColumn column).map fun c q => { q with order := q.order ++ [(c, direction)] }]
  | .limit n => [.ok fun q => { q with limit := some n }]
  | .offset n => [.ok fun q => { q with offset := some n }]
  | .named name => [(Identifier.quote name).map fun a q => { q with alias? := some a }]
  | .options o => [.ok fun q => { q with options := o }]

end Select.Call

namespace Insert.Call

@[inherit_doc Select.Call.kind]
def kind : Call → CallKind
  | .value .. | .values _ => .value
  | .options _ => .options

@[inherit_doc Select.Call.error?]
def error? : Call → Option Error
  | .value column _ => failureOf (quoteColumn column)
  | .values vs => vs.findSome? fun v => failureOf (quoteColumn v.1)
  | .options _ => none

/-- The change by the value of a column. -/
def valueChange (v : String × Value) : Change Insert :=
  (quoteColumn v.1).map fun c s => { s with values := s.values ++ [(c, v.2)] }

@[inherit_doc Select.Call.changes]
def changes : Call → List (Change Insert)
  | .value column v => [valueChange (column, v)]
  | .values vs => vs.map valueChange
  | .options o => [.ok fun s => { s with options := o }]

end Insert.Call

namespace Update.Call

@[inherit_doc Select.Call.kind]
def kind : Call → CallKind
  | .set .. | .setAll _ => .value
  | .filters _ => .condition
  | .options _ => .options

@[inherit_doc Select.Call.error?]
def error? : Call → Option Error
  | .set column _ => failureOf (quoteColumn column)
  | .setAll vs => vs.findSome? fun v => failureOf (quoteColumn v.1)
  | .filters fs => Filter.errorOfAll fs
  | .options _ => none

/-- The change by the new value of a column. -/
def setChange (v : String × Value) : Change Update :=
  (quoteColumn v.1).map fun c s => { s with sets := s.sets ++ [(c, v.2)] }

@[inherit_doc Select.Call.changes]
def changes : Call → List (Change Update)
  | .set column v => [setChange (column, v)]
  | .setAll vs => vs.map setChange
  | .filters fs =>
    [(WhereClause.ofFilters fs).map fun w s => { s with clauses := s.clauses ++ [w] }]
  | .options o => [.ok fun s => { s with options := o }]

end Update.Call

namespace Delete.Call

@[inherit_doc Select.Call.kind]
def kind : Call → CallKind
  | .filters _ => .condition
  | .options _ => .options

@[inherit_doc Select.Call.error?]
def error? : Call → Option Error
  | .filters fs => Filter.errorOfAll fs
  | .options _ => none

@[inherit_doc Select.Call.changes]
def changes : Call → List (Change Delete)
  | .filters fs =>
    [(WhereClause.ofFilters fs).map fun w s => { s with clauses := s.clauses ++ [w] }]
  | .options o => [.ok fun s => { s with options := o }]

end Delete.Call

namespace CreateTable

/-- A call on a CREATE TABLE. -/
inductive Call where
  | column (name type : String)
  | unlessThere

/-- The statement after a call. -/
def after (s : CreateTable) : Call → CreateTable
  | .column name type => s.column name type
  | .unlessThere => s.unlessThere

namespace Call

@[inherit_doc Select.Call.kind]
def kind : Call → CallKind
  | .column .. => .column
  | .unlessThere => .presence

@[inherit_doc Select.Call.error?]
def error? : Call → Option Error
  | .column name _ => failureOf (Identifier.quote name)
  | .unlessThere => none

@[inherit_doc Select.Call.changes]
def changes : Call → List (Change CreateTable)
  | .column name type =>
    [(Identifier.quote name).map fun c s => { s with columns := s.columns ++ [(c, type)] }]
  | .unlessThere => [.ok CreateTable.unlessThere]

end Call

end CreateTable

end SqlAssembly

import SqlAssembly.Filter.Classify
import SqlAssembly.Query.Render

namespace SqlAssembly

/-!
# Putting a SELECT together

Each step checks what it adds.  The first error is kept in the query, so that steps can be chained
and the error is given when the query is built; a step that fails adds nothing.
-/

/-- An entry of a select list as a caller writes it. -/
inductive FieldSpec where
  | column (expr : String)
  | call (call : FunctionCall)
  | subquery (query : Select)

/-- The entry of a select list, if nothing is wrong with it. -/
def FieldSpec.field : FieldSpec → Except Error Field
  | .column expr => (quoteColumn expr).map .column
  | .call f => f.sql.map fun _ => .call f
  | .subquery query => .ok (.subquery query)

namespace Select

/-- Keeps an error, unless there was one before. -/
def record (q : Select) (e : Error) : Select := { q with fault := q.fault <|> some e }

/-- Adds what was checked, or keeps the error. -/
def add {α : Type} (q : Select) (part : Except Error α) (put : α → Select) : Select :=
  match part with
  | .ok a => put a
  | .error e => q.record e

/-- Adds an entry to the select list. -/
def field (q : Select) (spec : FieldSpec) : Select :=
  q.add spec.field fun f => { q with fields := q.fields ++ [f] }

/-- Adds entries to the select list. -/
def addFields (q : Select) (specs : List FieldSpec) : Select := specs.foldl field q

/-- A query of the given entries. -/
def ofFields (specs : List FieldSpec) : Select := addFields {} specs

/-- A query of all columns. -/
def star : Select := ofFields [.column "*"]

/-- Adds a table. -/
def table (q : Select) (expr : String) : Select :=
  q.add (QualifiedName.quoteTable expr) fun t => { q with tables := q.tables ++ [t] }

/-- The join of a table on two columns. -/
def joinOf (kind : JoinKind) (table left right : String) : Except Error Join := do
  let table ← QualifiedName.quoteTable table
  let left ← quoteColumn left
  let right ← quoteColumn right
  return ⟨kind, table, left, right⟩

/-- Joins a table where two columns are equal. -/
def join (q : Select) (kind : JoinKind) (table left right : String) : Select :=
  q.add (joinOf kind table left right) fun j => { q with joins := q.joins ++ [j] }

/-- Adds a clause. -/
def addClause (q : Select) (clause : Except Error WhereClause) : Select :=
  q.add clause fun w => { q with clauses := q.clauses ++ [w] }

/-- Adds filters that all have to hold. -/
def filterAll (q : Select) (filters : List Filter) : Select :=
  q.addClause (WhereClause.ofFilters filters)

/-- Adds a filter. -/
def filter (q : Select) (f : Filter) : Select := q.filterAll [f]

/-- Adds a condition that was checked before. -/
def filterBy (q : Select) (c : Condition) : Select :=
  q.addClause (WhereClause.ofConditions [c])

/-- Orders by a column, behind the orderings so far. -/
def orderBy (q : Select) (column : String) (direction : Direction := default) : Select :=
  q.add (quoteColumn column) fun c => { q with order := q.order ++ [(c, direction)] }

def withLimit (q : Select) (n : UInt64) : Select := { q with limit := some n }

def withOffset (q : Select) (n : UInt64) : Select := { q with offset := some n }

/-- The name that the query goes by as a field. -/
def withAlias (q : Select) (name : String) : Select :=
  q.add (Identifier.quote name) fun a => { q with alias? := some a }

/-- The options of the query when it is built on its own. -/
def withOptions (q : Select) (options : BuildOptions) : Select := { q with options }

end Select

end SqlAssembly

import SqlAssembly.Filter.Classify
import SqlAssembly.Query.Render
import SqlAssembly.Statement.Target

namespace SqlAssembly

/-!
# UPDATE

New values for columns, in the rows that satisfy all conditions.  The new values are bound before
the values of the conditions.
-/

/-- An UPDATE statement; the columns are quoted. -/
structure Update where
  target : Target
  sets : List (String × Value) := []
  clauses : List WhereClause := []
  options : BuildOptions := {}

namespace Update

/-- An UPDATE of the table of a name. -/
def of (table : String) : Update := { target := .ofName table }

/-- Sets a column to a value. -/
def set (s : Update) (column : String) (v : Value) : Update :=
  match quoteColumn column with
  | .ok c => { s with sets := s.sets ++ [(c, v)] }
  | .error e => { s with target := s.target.record e }

/-- Sets columns to values. -/
def setAll (s : Update) (vs : List (String × Value)) : Update :=
  vs.foldl (fun s v => s.set v.1 v.2) s

/-- Adds filters that all have to hold. -/
def filterAll (s : Update) (filters : List Filter) : Update :=
  match WhereClause.ofFilters filters with
  | .ok w => { s with clauses := s.clauses ++ [w] }
  | .error e => { s with target := s.target.record e }

/-- Adds a filter. -/
def filter (s : Update) (f : Filter) : Update := s.filterAll [f]

def withOptions (s : Update) (options : BuildOptions) : Update := { s with options }

/-- Renders the statement. -/
def render (s : Update) : Render String := do
  let table ← liftExcept s.target.resolve
  if s.sets.isEmpty then throw (.columnsMissing .update)
  let names ← Render.bindAll (s.sets.map (·.2))
  let sets := (s.sets.zip names).map fun (c, name) => c.1 ++ " = " ++ name
  let clauses ← WhereClause.renderAll s.clauses
  return "UPDATE " ++ table ++ " SET " ++ ", ".intercalate sets ++ whereSuffix clauses

end Update

end SqlAssembly

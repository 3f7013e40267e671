import SqlAssembly.Filter.Classify
import SqlAssembly.Query.Render
import SqlAssembly.Statement.Target

namespace SqlAssembly

/-!
# DELETE

The rows that satisfy all conditions are deleted; without conditions, all rows.
-/

/-- A DELETE statement. -/
structure Delete where
  target : Target
  clauses : List WhereClause := []
  options : BuildOptions := {}

namespace Delete

/-- A DELETE from the table of a name. -/
def fromTable (table : String) : Delete := { target := .ofName table }

/-- Adds filters that all have to hold. -/
def filterAll (s : Delete) (filters : List Filter) : Delete :=
  match WhereClause.ofFilters filters with
  | .ok w => { s with clauses := s.clauses ++ [w] }
  | .error e => { s with target := s.target.record e }

/-- Adds a filter. -/
def filter (s : Delete) (f : Filter) : Delete := s.filterAll [f]

def withOptions (s : Delete) (options : BuildOptions) : Delete := { s with options }

/-- Renders the statement. -/
def render (s : Delete) : Render String := do
  let table ← liftExcept s.target.resolve
  let clauses ← WhereClause.renderAll s.clauses
  return "DELETE FROM " ++ table ++ whereSuffix clauses

end Delete

end SqlAssembly

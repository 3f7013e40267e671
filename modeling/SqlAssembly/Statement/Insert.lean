import SqlAssembly.Allocator
import SqlAssembly.ColumnExpr.Parser
import SqlAssembly.Statement.Target

namespace SqlAssembly

/-!
# INSERT

One row of values, given column by column.
-/

/-- An INSERT statement; the columns are quoted. -/
structure Insert where
  target : Target
  values : List (String × Value) := []
  options : BuildOptions := {}
  deriving DecidableEq, Repr

namespace Insert

/-- An INSERT into the table of a name. -/
def into (table : String) : Insert := { target := .ofName table }

/-- Adds the value of a column. -/
def value (s : Insert) (column : String) (v : Value) : Insert :=
  match quoteColumn column with
  | .ok c => { s with values := s.values ++ [(c, v)] }
  | .error e => { s with target := s.target.record e }

/-- Adds the values of columns. -/
def addValues (s : Insert) (vs : List (String × Value)) : Insert :=
  vs.foldl (fun s v => s.value v.1 v.2) s

def withOptions (s : Insert) (options : BuildOptions) : Insert := { s with options }

/-- Renders the statement. -/
def render (s : Insert) : Render String := do
  let table ← liftExcept s.target.resolve
  if s.values.isEmpty then throw (.columnsMissing .insert)
  let names ← Render.bindAll (s.values.map (·.2))
  return "INSERT INTO " ++ table ++ " (" ++ ", ".intercalate (s.values.map (·.1))
    ++ ") VALUES (" ++ ", ".intercalate names ++ ")"

end Insert

end SqlAssembly

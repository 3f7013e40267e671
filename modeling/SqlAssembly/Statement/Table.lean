import SqlAssembly.Allocator
import SqlAssembly.Statement.Target

namespace SqlAssembly

/-!
# CREATE TABLE and DROP TABLE

Column names are quoted, column types are taken as they are.
-/

/-- A CREATE TABLE statement: quoted column names with their types. -/
structure CreateTable where
  target : Target
  columns : List (String × String) := []
  ifNotExists : Bool := false
  deriving DecidableEq, Repr

namespace CreateTable

/-- Adds a column. -/
def column (s : CreateTable) (name type : String) : CreateTable :=
  match Identifier.quote name with
  | .ok c => { s with columns := s.columns ++ [(c, type)] }
  | .error e => { s with target := s.target.record e }

/-- The table of a name with the given columns. -/
def of (table : String) (columns : List (String × String)) : CreateTable :=
  columns.foldl (fun s c => s.column c.1 c.2) { target := .ofName table }

/-- The table may be there already. -/
def unlessThere (s : CreateTable) : CreateTable := { s with ifNotExists := true }

/-- A column with the blanks around its type removed. -/
def columnSql (c : String × String) : String :=
  c.1 ++ " " ++ String.ofList (Text.trim c.2.toList)

/-- Renders the statement. -/
def render (s : CreateTable) : Render String := do
  let table ← liftExcept s.target.resolve
  if s.columns.isEmpty then throw (.columnsMissing .createTable)
  return "CREATE TABLE " ++ (if s.ifNotExists then "IF NOT EXISTS " else "") ++ table
    ++ " (" ++ ", ".intercalate (s.columns.map columnSql) ++ ")"

end CreateTable

/-- A DROP TABLE statement. -/
structure DropTable where
  target : Target
  deriving DecidableEq, Repr

namespace DropTable

/-- The table of a name. -/
def of (table : String) : DropTable := { target := .ofName table }

/-- Renders the statement. -/
def render (s : DropTable) : Render String := do
  let table ← liftExcept s.target.resolve
  return "DROP TABLE " ++ table

end DropTable

end SqlAssembly

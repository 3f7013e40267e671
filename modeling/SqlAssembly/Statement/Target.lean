import SqlAssembly.Identifier.QualifiedName

namespace SqlAssembly

/-!
# The table of a statement

A statement other than a query has one table, which is named first.  A blank name is no error
yet, it leaves the statement without a table.
-/

/-- The quoted table of a statement, and the first error made in putting the statement
together. -/
structure Target where
  table : Option String := none
  fault : Option Error := none
  deriving DecidableEq, Repr

namespace Target

/-- The table of a name. -/
def ofName (name : String) : Target :=
  if Text.allBlank name.toList then {}
  else
    match QualifiedName.quoteTable name with
    | .ok table => { table := some table }
    | .error e => { fault := some e }

/-- Keeps an error, unless there was one before. -/
def record (t : Target) (e : Error) : Target := { t with fault := t.fault <|> some e }

/-- The table, if nothing went wrong and there is one. -/
def resolve (t : Target) : Except Error String :=
  match t.fault, t.table with
  | some e, _ => .error e
  | none, none => .error .tableMissing
  | none, some table => .ok table

end Target

end SqlAssembly

import SqlAssembly.ColumnExpr.Parser

namespace SqlAssembly

/-!
# Column functions

Calls of a function on one column, described rather than written, as entries of a select list.
-/

/-- The functions that may be described. -/
inductive ColumnFunction where
  | count
  | sum
  | min
  | max
  | avg
  | upper
  | lower
  | length
  deriving DecidableEq, Repr

def ColumnFunction.name : ColumnFunction → String
  | .count => "COUNT"
  | .sum => "SUM"
  | .min => "MIN"
  | .max => "MAX"
  | .avg => "AVG"
  | .upper => "UPPER"
  | .lower => "LOWER"
  | .length => "LENGTH"

/-- A function applied to a column expression, with an optional alias for the result. -/
structure FunctionCall where
  function : ColumnFunction
  column : String
  alias? : Option String := none
  deriving DecidableEq, Repr

/-- The SQL text of a call, its column and its alias quoted. -/
def FunctionCall.sql (call : FunctionCall) : Except Error String := do
  let column ← quoteColumn call.column
  let sql := call.function.name ++ "(" ++ column ++ ")"
  match call.alias? with
  | none => return sql
  | some name => return sql ++ " AS " ++ (← Identifier.quote name)

end SqlAssembly

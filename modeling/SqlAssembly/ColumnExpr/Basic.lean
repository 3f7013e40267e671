import SqlAssembly.Identifier.QualifiedName

namespace SqlAssembly

/-!
# Column expressions

What may stand where a statement names a column: a star, a qualified name, or a call whose
arguments are literals and expressions again.

* `ColumnExpr`, `Argument` — the expressions;
* `ColumnExpr.sql` — the SQL text, every name quoted and every function name in capitals.
-/

mutual

/-- A column expression.  Names are unquoted. -/
inductive ColumnExpr where
  | star
  | column (name : QualifiedName)
  | call (function : String) (arguments : List Argument) (alias? : Option String)

/-- An argument of a call; the text of a literal is kept as it is. -/
inductive Argument where
  | literal (text : String)
  | expr (e : ColumnExpr)

end

mutual

/-- The SQL text of an expression. -/
def ColumnExpr.sql : ColumnExpr → String
  | .star => "*"
  | .column name => name.sql
  | .call function arguments alias? =>
    function ++ "(" ++ ", ".intercalate (Argument.sqls arguments) ++ ")" ++ aliasSql alias?

/-- The SQL text of an argument. -/
def Argument.sql : Argument → String
  | .literal text => text
  | .expr e => e.sql

/-- The SQL texts of the arguments. -/
def Argument.sqls : List Argument → List String
  | [] => []
  | a :: rest => a.sql :: Argument.sqls rest

end

end SqlAssembly

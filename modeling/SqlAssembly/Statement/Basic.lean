import SqlAssembly.Statement.Delete
import SqlAssembly.Statement.Insert
import SqlAssembly.Statement.RawSql
import SqlAssembly.Statement.Select
import SqlAssembly.Statement.Table
import SqlAssembly.Statement.Update
import SqlAssembly.Verb

namespace SqlAssembly

/-!
# Statements

All statements, and building one into SQL text and parameters.

* `Statement.render` — renders on an allocator that others may have used before;
* `Statement.build` — renders on an allocator of its own;
* `BuiltQuery` — the text with its parameters.
-/

/-- A statement of any kind. -/
inductive Statement where
  | select (s : Select)
  | insert (s : Insert)
  | update (s : Update)
  | delete (s : Delete)
  | createTable (s : CreateTable)
  | dropTable (s : DropTable)
  | raw (s : RawSql)

/-- SQL text and the values of its placeholders. -/
structure BuiltQuery where
  sql : String
  params : Params
  deriving DecidableEq, Repr

/-- What the text does. -/
def BuiltQuery.verb (q : BuiltQuery) : Verb := Verb.ofSql q.sql

namespace Statement

/-- The kind of a statement in log lines. -/
def kind : Statement → String
  | .select _ => "SELECT"
  | .insert _ => "INSERT"
  | .update _ => "UPDATE"
  | .delete _ => "DELETE"
  | .createTable _ => "CREATE TABLE"
  | .dropTable _ => "DROP TABLE"
  | .raw _ => "RAW"

/-- The options of a statement that is built on its own. -/
def options : Statement → BuildOptions
  | .select s => s.options
  | .insert s => s.options
  | .update s => s.options
  | .delete s => s.options
  | .createTable _ | .dropTable _ | .raw _ => {}

/-- Renders a statement. -/
def render : Statement → Render String
  | .select s => s.render
  | .insert s => s.render
  | .update s => s.render
  | .delete s => s.render
  | .createTable s => s.render
  | .dropTable s => s.render
  | .raw s => s.render

/-- Builds a statement on an allocator of its own. -/
def build (s : Statement) : Except Error BuiltQuery :=
  match s.render.outcome (Allocator.new s.options) with
  | (.ok sql, a) => .ok ⟨sql, a.params⟩
  | (.error e, _) => .error e

/-- The SQL text of a statement. -/
def toSql (s : Statement) : Except Error String := s.build.map (·.sql)

/-- The parameters of a statement. -/
def params (s : Statement) : Except Error Params := s.build.map (·.params)

end Statement

end SqlAssembly

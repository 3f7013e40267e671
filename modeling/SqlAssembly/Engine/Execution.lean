import SqlAssembly.Engine.Basic
import SqlAssembly.Engine.Log
import SqlAssembly.Statement.Basic

namespace SqlAssembly

/-!
# Executing statements

A statement is built, prepared and executed, with an event in the log when it was built and another
one before it is prepared.

* `Statement.buildLogged` — builds a statement;
* `Statement.execute` — builds and executes it;
* `Statement.getAs`, `Statement.allAs` — and reads the rows into records.
-/

namespace Statement

variable {σ π : Type} [LogSink σ]

/-- The event after a statement was built. -/
def builtEvent (s : Statement) (q : BuiltQuery) : LogEvent where
  level := .trace
  target := .build
  fields := [("kind", s.kind), ("sql_len", toString q.sql.utf8ByteSize),
    ("param_count", toString q.params.length), ("message", "statement built")]

/-- The event before a built statement is prepared. -/
def executingEvent (q : BuiltQuery) (c : Call) : LogEvent where
  level := .debug
  target := .sql
  fields := [("query_type", q.verb.name), ("param_count", toString q.params.length),
    ("call", c.name), ("message", "executing statement")]

/-- Builds a statement. -/
def buildLogged (s : Statement) : StateM σ (Except Error BuiltQuery) :=
  match s.build with
  | .error e => return .error e
  | .ok q => do
    log (s.builtEvent q)
    return .ok q

/-- Builds a statement and executes it on an engine. -/
def execute (s : Statement) (engine : Engine σ π) (c : Call) :
    StateM σ (Except Error c.Answer) := do
  match ← s.buildLogged with
  | .error e => return .error e
  | .ok q =>
    log (executingEvent q c)
    match ← engine.prepare q.sql with
    | .error e => return .error e
    | .ok stmt => return (← engine.execute c stmt q.params).1

/-- The first row as a record. -/
def getAs {α : Type} (s : Statement) (engine : Engine σ π) (decode : Row → Except Error α) :
    StateM σ (Except Error (Option α)) := do
  return (← s.execute engine .get).bind fun row => row.mapM decode

/-- All rows as records. -/
def allAs {α : Type} (s : Statement) (engine : Engine σ π) (decode : Row → Except Error α) :
    StateM σ (Except Error (List α)) := do
  return (← s.execute engine .all).bind fun rows => rows.mapM decode

end Statement

end SqlAssembly

import SqlAssembly.Engine.Log
import SqlAssembly.Hook.Basic
import SqlAssembly.Text.Escaped

namespace SqlAssembly

/-!
# Logging hooks

A hook that sends an event to the log before a statement runs and another one after it.
-/

/-- The settings of a logging hook. -/
structure LogHook where
  level : LogLevel := .debug
  /-- The bytes of an SQL text that are shown, or all of them. -/
  maxSqlBytes : Option Nat := some 200
  deriving DecidableEq, Repr

namespace LogHook

/-- The SQL text as it is shown. -/
def shownSql (h : LogHook) (sql : String) : String :=
  match h.maxSqlBytes with
  | none => sql
  | some limit => Text.ellipsized limit sql

/-- The fields of a context as they are shown. -/
def shownFields (fields : List (String × String)) : String :=
  let shown := fields.map fun f => Text.escaped f.1 ++ ": " ++ Text.escaped f.2
  "\x7b" ++ ", ".intercalate shown ++ "\x7d"

/-- The event before a statement runs. -/
def beforeEvent (h : LogHook) (ctx : QueryContext) : LogEvent where
  level := h.level
  target := .sql
  fields := [("query_type", ctx.verb.name), ("tag", ctx.tag.getD "-"),
    ("param_count", toString ctx.paramCount), ("sql", h.shownSql ctx.execSql),
    ("fields", shownFields ctx.fields)]

/-- The event after a statement ran. -/
def afterEvent (h : LogHook) (ctx : QueryContext) (outcome : Outcome) : LogEvent where
  level := h.level
  target := .sql
  fields := [("query_type", ctx.verb.name), ("tag", ctx.tag.getD "-"),
    ("result", outcome.display)]

/-- The hook of these settings; it lets every statement pass. -/
def hook {σ : Type} [LogSink σ] (h : LogHook) : Hook σ :=
  .single
    (fun ctx => do
      log (h.beforeEvent ctx)
      return .proceed)
    (fun ctx outcome => log (h.afterEvent ctx outcome))

end LogHook

end SqlAssembly

import SqlAssembly.Engine.Basic
import SqlAssembly.Hook.Basic

namespace SqlAssembly

/-!
# Engines with hooks

An engine that asks a hook before every execution and tells it how the execution ended.  It is an
engine again.  A text is only prepared when it is executed, because the hook may put another one in
its place, and a prepared statement is kept until another text is due.

* `HookedEngine` — an engine, a hook and a tag;
* `HookedStatement` — a text with the statement that was prepared last;
* `HookedEngine.execute` — asking, preparing, executing, telling;
* `HookedEngine.engine` — the engine that does so.
-/

/-- An engine with a hook and a tag that its statements carry. -/
structure HookedEngine (σ π : Type) where
  inner : Engine σ π
  hook : Option (Hook σ) := none
  tag : Option String := none

/-- A text with the statement that the inner engine prepared last, and from which text. -/
structure HookedStatement (π : Type) where
  sql : String
  prepared : Option (String × π) := none

namespace HookedEngine

variable {σ π : Type}

/-- The engine with another hook in place of the one it had. -/
def withHook (e : HookedEngine σ π) (h : Hook σ) : HookedEngine σ π :=
  { e with hook := some h }

/-- The engine with a hook behind the one it had. -/
def addHook (e : HookedEngine σ π) (h : Hook σ) : HookedEngine σ π :=
  { e with hook := some (match e.hook with
      | none => h
      | some first => .composite [first, h]) }

/-- The engine with a tag. -/
def withTag (e : HookedEngine σ π) (tag : String) : HookedEngine σ π :=
  { e with tag := some tag }

/-- The context of an execution before the hook is asked. -/
def context (e : HookedEngine σ π) (sql : String) (params : Params) : QueryContext :=
  { QueryContext.ofSql sql params.length with tag := e.tag }

/-- Asks the hook. -/
def ask (e : HookedEngine σ π) (ctx : QueryContext) : StateM σ (Except String QueryContext) :=
  match e.hook with
  | none => return .ok ctx
  | some h => do return ctx.follow (← h.before ctx)

/-- Tells the hook. -/
def tell (e : HookedEngine σ π) (ctx : QueryContext) (outcome : Outcome) : StateM σ Unit :=
  match e.hook with
  | none => return ()
  | some h => h.after ctx outcome

/-- The statement prepared from a text: the one at hand if it is, or else a new one. -/
def obtain (e : HookedEngine σ π) (prepared : Option (String × π)) (sql : String) :
    StateM σ (Except Error π) :=
  match prepared with
  | some (text, stmt) => if text = sql then return .ok stmt else e.inner.prepare sql
  | none => e.inner.prepare sql

/-- Asks the hook, executes the statement on the inner engine and tells the hook.  If the hook
refuses, nothing else happens; if a text cannot be prepared, the statement at hand is kept. -/
def execute (e : HookedEngine σ π) (c : Call) (s : HookedStatement π) (params : Params) :
    StateM σ (Except Error c.Answer × HookedStatement π) := do
  match ← e.ask (e.context s.sql params) with
  | .error reason => return (.error (.aborted reason), s)
  | .ok ctx =>
    match ← e.obtain s.prepared ctx.execSql with
    | .error err =>
      e.tell ctx (.failure err.message)
      return (.error err, s)
    | .ok stmt =>
      let (result, stmt) ← e.inner.execute c stmt params
      e.tell ctx (match result with
        | .ok answer => c.summary answer
        | .error err => .failure err.message)
      return (result, { s with prepared := some (ctx.execSql, stmt) })

/-- The engine that runs a hook around every execution. -/
def engine (e : HookedEngine σ π) : Engine σ (HookedStatement π) where
  prepare sql := return .ok { sql }
  execute c s params := e.execute c s params

end HookedEngine

end SqlAssembly

import SqlAssembly.Hook.Context

namespace SqlAssembly

/-!
# Hooks

A hook is asked before a statement runs and told how it ended.  It may keep a state of its own in
the surrounding state `σ`.  Hooks that are combined are asked in order, each about the statement as
the hooks before it left it, until one refuses.

* `Hook` — a single hook or a list of hooks;
* `Hook.before`, `Hook.after` — asking and telling;
* `Hook.chain` — the context after asking several hooks.
-/

/-- A hook over a state. -/
inductive Hook (σ : Type) where
  | single (before : QueryContext → StateM σ Verdict)
      (after : QueryContext → Outcome → StateM σ Unit)
  | composite (hooks : List (Hook σ))

namespace Hook

variable {σ : Type}

/-- A hook that lets every statement pass. -/
def plain : Hook σ := .single (fun _ => pure .proceed) (fun _ _ => pure ())

mutual

/-- Asks a hook about a statement. -/
def before : Hook σ → QueryContext → StateM σ Verdict
  | .single ask _, ctx => ask ctx
  | .composite hooks, ctx => do
    match ← chain hooks ctx with
    | .ok last => return .between ctx last
    | .error reason => return .abort reason

/-- Asks hooks in order until one refuses. -/
def chain : List (Hook σ) → QueryContext → StateM σ (Except String QueryContext)
  | [], ctx => return .ok ctx
  | h :: rest, ctx => do
    match ctx.follow (← before h ctx) with
    | .ok next => chain rest next
    | .error reason => return .error reason

end

mutual

/-- Tells a hook how a statement ended. -/
def after : Hook σ → QueryContext → Outcome → StateM σ Unit
  | .single _ tell, ctx, outcome => tell ctx outcome
  | .composite hooks, ctx, outcome => tellAll hooks ctx outcome

/-- Tells hooks in order. -/
def tellAll : List (Hook σ) → QueryContext → Outcome → StateM σ Unit
  | [], _, _ => return ()
  | h :: rest, ctx, outcome => do
    after h ctx outcome
    tellAll rest ctx outcome

end

/-- The text of a list of hooks in log lines. -/
def debugText (hooks : List (Hook σ)) : String :=
  "CompositeHook \x7b hooks: " ++ toString hooks.length ++ " \x7d"

end Hook

end SqlAssembly

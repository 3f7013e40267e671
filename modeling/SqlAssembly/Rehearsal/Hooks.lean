import SqlAssembly.Engine.Hooked
import SqlAssembly.Hook.Log
import SqlAssembly.Rehearsal.Journal

namespace SqlAssembly.Rehearsal

/-!
# Hooks of a rehearsal

Scripted hooks note in the journal when they are asked and told, and answer by their rules.

* `HookPlan` — a description of a hook;
* `HookPlan.install` — the hook of a description;
* `HookSetup` — the hooks and the tag of an engine;
* `consult` — asks and tells hooks outside of any engine.
-/

/-- A description of a hook. -/
inductive HookPlan where
  | plain
  | log (settings : LogHook)
  | composite (plans : List HookPlan)
  /-- Answers by one rule after the other, and proceeds when none is left. -/
  | script (name : String) (rules : List Rule)
  /-- Answers by the same rule every time. -/
  | always (name : String) (rule : Rule)

/-- A hook that notes what happens and takes its verdicts from rules. -/
def noting (name : String) (next : StateM Stage (Option Rule)) : Hook Stage :=
  .single
    (fun ctx => do
      modify (Stage.note (.asked name ctx))
      return ((← next).getD .proceed).verdict ctx)
    (fun ctx outcome => modify (Stage.note (.told name ctx outcome)))

namespace HookPlan

mutual

/-- The hook of a description.  Every script gets a place in the state. -/
def install : HookPlan → StateM Stage (Hook Stage)
  | .plain => return .plain
  | .log settings => return settings.hook
  | .composite plans => do return .composite (← installAll plans)
  | .script name rules => do
    let s ← get
    set { s with scripts := s.scripts ++ [rules] }
    return noting name (Stage.nextRule s.scripts.length)
  | .always name rule => return noting name (return some rule)

/-- The hooks of descriptions. -/
def installAll : List HookPlan → StateM Stage (List (Hook Stage))
  | [] => return []
  | p :: rest => do
    let h ← install p
    let rest ← installAll rest
    return h :: rest

end

end HookPlan

/-- The hooks that an engine is given one after the other, each in place of those before it or
behind them, and its tag. -/
structure HookSetup where
  hooks : List (Bool × HookPlan) := []
  tag : Option String := none

/-- The engine with the hooks and the tag. -/
def HookSetup.wrap {π : Type} (setup : HookSetup) (inner : Engine Stage π) :
    StateM Stage (HookedEngine Stage π) := do
  let engine ← setup.hooks.foldlM
    (fun (e : HookedEngine Stage π) (replaces, plan) => do
      let h ← plan.install
      return if replaces then e.withHook h else e.addHook h)
    { inner }
  return match setup.tag with
    | none => engine
    | some tag => engine.withTag tag

/-- Asks the hooks together `times` times about a statement, and tells them the outcome if there
is one. -/
def consult (plans : List HookPlan) (ctx : QueryContext) (times : Nat)
    (outcome : Option Outcome) : List Verdict × List Event :=
  let script : StateM Stage (List Verdict) := do
    let hook := Hook.composite (← HookPlan.installAll plans)
    let verdicts ← (List.range times).mapM fun _ => hook.before ctx
    if let some outcome := outcome then hook.after ctx outcome
    return verdicts
  let (verdicts, stage) := script.run {}
  (verdicts, stage.events)

end SqlAssembly.Rehearsal

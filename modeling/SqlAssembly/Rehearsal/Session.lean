import SqlAssembly.Engine.Execution
import SqlAssembly.Rehearsal.Hooks
import SqlAssembly.Rehearsal.Memory

namespace SqlAssembly.Rehearsal

/-!
# Rehearsed sessions

A session is a list of steps on one engine: statements that are built and executed, texts that are
prepared and executed later, and rows that are read into records of type `α`.

* `Step`, `Answer`, `Report` — what is done, what comes of it, and what happened meanwhile;
* `Session` — the engine, its hooks and the steps;
* `Session.play` — the reports of all steps.
-/

/-- A step of a session. -/
inductive Step where
  | execute (c : Call) (s : Statement)
  /-- Reads the first row into a record. -/
  | getAs (s : Statement)
  /-- Reads all rows into records. -/
  | allAs (s : Statement)
  | prepare (sql : String)
  /-- Executes what an earlier step prepared, counting these steps from 0. -/
  | call (slot : Nat) (c : Call) (params : Params)
  | readRow (row : Row)

/-- What comes of a step. -/
inductive Answer (α : Type) where
  | slot (n : Nat)
  | answer (c : Call) (a : c.Answer)
  | record (r : Option α)
  | records (rs : List α)

/-- The result of a step and the entries of the journal about it. -/
structure Report (α : Type) where
  result : Except Error (Answer α)
  events : List Event

/-- How the engine of a session is wrapped. -/
inductive Wrapping where
  | bare
  | hooked (outer : HookSetup)
  | nested (inner outer : HookSetup)

/-- A session. -/
structure Session where
  memory : Memory := {}
  wrapping : Wrapping := .bare
  keepsLog : Bool := false
  steps : List Step

variable {α π : Type}

/-- Takes a step on an engine, with the statements that earlier steps prepared.  There is no result
if it calls for a statement that was not prepared. -/
def Step.take (engine : Engine Stage π) (decode : Row → Except Error α)
    (slots : List (Option π)) :
    Step → StateM Stage (Option (Except Error (Answer α) × List (Option π)))
  | .execute c s => do
    return some ((← s.execute engine c).map (.answer c), slots)
  | .getAs s => do
    return some ((← s.getAs engine decode).map .record, slots)
  | .allAs s => do
    return some ((← s.allAs engine decode).map .records, slots)
  | .prepare sql => do
    match ← engine.prepare sql with
    | .ok stmt => return some (.ok (.slot slots.length), slots ++ [some stmt])
    | .error e => return some (.error e, slots ++ [none])
  | .call slot c params => do
    match slots[slot]? with
    | some (some stmt) =>
      let (result, stmt) ← engine.execute c stmt params
      return some (result.map (.answer c), slots.set slot (some stmt))
    | _ => return none
  | .readRow row => return some ((decode row).map fun r => .record (some r), slots)

/-- Takes all steps on an engine. -/
def takeSteps (engine : Engine Stage π) (decode : Row → Except Error α) :
    List (Option π) → List Step → StateM Stage (Option (List (Report α)))
  | _, [] => return some []
  | slots, step :: rest => do
    match ← step.take engine decode slots with
    | none => return none
    | some (result, slots) =>
      let events ← Stage.takeEvents
      return (← takeSteps engine decode slots rest).map (⟨result, events⟩ :: ·)

/-- The reports of all steps and the number of texts that were prepared. -/
def Session.play (s : Session) (decode : Row → Except Error α) :
    Option (List (Report α) × Nat) :=
  let script : StateM Stage (Option (List (Report α))) := do
    match s.wrapping with
    | .bare => takeSteps s.memory.engine decode [] s.steps
    | .hooked outer =>
      let engine ← outer.wrap s.memory.engine
      takeSteps engine.engine decode [] s.steps
    | .nested inner outer =>
      let engine ← inner.wrap s.memory.engine
      let engine ← outer.wrap engine.engine
      takeSteps engine.engine decode [] s.steps
  let (reports, stage) := script.run { keepsLog := s.keepsLog }
  reports.map (·, stage.prepared)

end SqlAssembly.Rehearsal

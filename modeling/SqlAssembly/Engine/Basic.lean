import SqlAssembly.Hook.Context
import SqlAssembly.Params

namespace SqlAssembly

/-!
# Engines

An engine prepares SQL texts and executes what it prepared, changing the surrounding state `σ` on
the way.

* `Call` — the three ways to execute a statement, with the type of the answer to each;
* `Engine` — preparing and executing.
-/

/-- The ways to execute a prepared statement: for its first row, for all its rows, or for its
effect. -/
inductive Call where
  | get
  | all
  | run
  deriving DecidableEq, Repr

namespace Call

/-- The answer to a call. -/
abbrev Answer : Call → Type
  | .get => Option Row
  | .all => List Row
  | .run => RunResult

/-- The answer in short. -/
def summary : (c : Call) → c.Answer → Outcome
  | .get, row => .found row.isSome
  | .all, rows => .rows rows.length
  | .run, result => .affected result.changes

/-- The name of a call. -/
def name : Call → String
  | .get => "get"
  | .all => "all"
  | .run => "run"

end Call

/-- An engine over a state, with prepared statements of type `π`. -/
structure Engine (σ π : Type) where
  prepare : String → StateM σ (Except Error π)
  /-- Executes a prepared statement, which may change by it. -/
  execute : (c : Call) → π → Params → StateM σ (Except Error c.Answer × π)

end SqlAssembly

import SqlAssembly.Engine.Basic
import SqlAssembly.Engine.Log

namespace SqlAssembly.Rehearsal

/-!
# The journal of a rehearsal

Hooks and engines can be tried out without a database.  The state of such a rehearsal keeps a
journal of everything that happened.

* `Rule` — what a scripted hook answers;
* `Event` — the entries of the journal;
* `Stage` — the state, with the rules that scripted hooks have left.
-/

/-- What a scripted hook answers. -/
inductive Rule where
  | proceed
  | substitute (exec : String) (canonical : Option String)
  /-- Adds a text to what the engine gets. -/
  | append (text : String)
  /-- Puts a text in front of the canonical one. -/
  | prepend (text : String)
  | abort (reason : String)
  /-- Refuses the statements of a verb. -/
  | abortVerb (verb : Verb)
  deriving DecidableEq, Repr

/-- The verdict of a rule on a statement. -/
def Rule.verdict (ctx : QueryContext) : Rule → Verdict
  | .proceed => .proceed
  | .substitute exec canonical => .substitute exec canonical
  | .append text => .substitute (ctx.execSql ++ text) none
  | .prepend text => .substitute ctx.execSql (some (text ++ ctx.canonicalSql))
  | .abort reason => .abort reason
  | .abortVerb verb =>
    if ctx.verb = verb then .abort (verb.name ++ " is not allowed") else .proceed

/-- Something that happened. -/
inductive Event where
  | asked (hook : String) (ctx : QueryContext)
  | told (hook : String) (ctx : QueryContext) (outcome : Outcome)
  | prepared (sql : String)
  | called (c : Call) (sql : String) (params : Params)
  | logged (e : LogEvent)
  deriving DecidableEq, Repr

/-- The state of a rehearsal. -/
structure Stage where
  events : List Event := []
  /-- The number of texts that were prepared. -/
  prepared : Nat := 0
  /-- The rules that each scripted hook has left. -/
  scripts : List (List Rule) := []
  /-- Log events go into the journal. -/
  keepsLog : Bool := true

namespace Stage

/-- The state with one more entry in the journal. -/
def note (e : Event) (s : Stage) : Stage := { s with events := s.events ++ [e] }

/-- Takes the next rule of a script; there may be none left. -/
def nextRule (script : Nat) : StateM Stage (Option Rule) := do
  let s ← get
  match s.scripts[script]? with
  | some (rule :: rest) =>
    set { s with scripts := s.scripts.set script rest }
    return some rule
  | _ => return none

/-- Takes all entries out of the journal. -/
def takeEvents : StateM Stage (List Event) :=
  modifyGet fun s => (s.events, { s with events := [] })

instance : LogSink Stage where
  record e s := if s.keepsLog then s.note (.logged e) else s

end Stage

end SqlAssembly.Rehearsal

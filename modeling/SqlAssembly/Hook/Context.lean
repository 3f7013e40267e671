import SqlAssembly.Engine.Row
import SqlAssembly.Engine.RunResult
import SqlAssembly.Text.Fitting
import SqlAssembly.Verb

namespace SqlAssembly

/-!
# What hooks are told and what they answer

* `QueryContext` — the statement that is about to run;
* `Verdict` — a hook's answer, and `QueryContext.follow`, its effect;
* `Outcome` — how a statement ended, in short.
-/

/-- A statement that is about to run. -/
structure QueryContext where
  /-- The SQL text as it was built. -/
  canonicalSql : String
  /-- The SQL text that the engine gets. -/
  execSql : String
  paramCount : Nat
  verb : Verb
  tag : Option String := none
  /-- Names and texts, ordered by name. -/
  fields : List (String × String) := []
  deriving DecidableEq, Repr

namespace QueryContext

/-- The context of a text. -/
def ofSql (sql : String) (paramCount : Nat) : QueryContext :=
  { canonicalSql := sql, execSql := sql, paramCount, verb := Verb.ofSql sql }

/-- The names in order with one more; a name that was there gets the new text. -/
def insertField (name text : String) : List (String × String) → List (String × String)
  | [] => [(name, text)]
  | f :: rest =>
    if name < f.1 then (name, text) :: f :: rest
    else if name = f.1 then (name, text) :: rest
    else f :: insertField name text rest

/-- The context with a field. -/
def withField (ctx : QueryContext) (name text : String) : QueryContext :=
  { ctx with fields := insertField name text ctx.fields }

/-- The context with other texts; the verb is that of the canonical one. -/
def substitute (ctx : QueryContext) (exec : String) (canonical : Option String) : QueryContext :=
  let canonicalSql := canonical.getD ctx.canonicalSql
  { ctx with execSql := exec, canonicalSql, verb := Verb.ofSql canonicalSql }

end QueryContext

/-- A hook's answer to a statement that is about to run. -/
inductive Verdict where
  | proceed
  /-- The engine shall get this text.  The canonical text may change too. -/
  | substitute (exec : String) (canonical : Option String)
  /-- The statement shall not run. -/
  | abort (reason : String)
  deriving DecidableEq, Repr

/-- The context after a verdict, or the reason not to go on. -/
def QueryContext.follow (ctx : QueryContext) : Verdict → Except String QueryContext
  | .proceed => .ok ctx
  | .substitute exec canonical => .ok (ctx.substitute exec canonical)
  | .abort reason => .error reason

/-- The verdict that leads from one context to the other. -/
def Verdict.between (before after : QueryContext) : Verdict :=
  if after.execSql = before.execSql ∧ after.canonicalSql = before.canonicalSql then .proceed
  else
    .substitute after.execSql
      (if after.canonicalSql = before.canonicalSql then none else some after.canonicalSql)

/-- How a statement ended. -/
inductive Outcome where
  | rows (n : Nat)
  | affected (n : UInt64)
  | found (row : Bool)
  | failed (text : String)
  deriving DecidableEq, Repr

namespace Outcome

/-- The bytes of an error text that are kept. -/
def maxErrorBytes : Nat := 512

/-- A failure with its text, cut if it is long. -/
def failure (text : String) : Outcome := .failed (Text.ellipsized maxErrorBytes text)

/-- The text of an outcome. -/
def display : Outcome → String
  | .rows n => toString n ++ " rows"
  | .affected n => toString n.toNat ++ " affected"
  | .found row => if row then "1 row" else "0 rows"
  | .failed text => "error: " ++ text

end Outcome

end SqlAssembly

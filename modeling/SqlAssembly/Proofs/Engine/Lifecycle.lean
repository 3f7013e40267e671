import SqlAssembly.Proofs.Engine.Session
import SqlAssembly.Proofs.Text.Fitting

namespace SqlAssembly

/-!
# What hooks see of an execution

Every single hook is asked before an execution, in the order in which hooks were added, until one of
them refuses.  If none does, every single hook is told in the same order how the execution ended.

* `Outcome.Reports` — the outcome in short that is right for a result;
* `Call.reports_outcome` — this is the one that hooks are told;
* `HookedEngine.execute_lifecycle` — the journal of an execution.
-/

variable {σ π : Type}

/-- The outcome is right for the result of a call: the number of rows, whether there is one, the
number of changes, or the text of the error, which is cut behind the characters that fit into 512
bytes. -/
inductive Outcome.Reports : (c : Call) → Except Error c.Answer → Outcome → Prop
  | found {row : Option Row} : Reports .get (.ok row) (.found row.isSome)
  | rows {rows : List Row} : Reports .all (.ok rows) (.rows rows.length)
  | affected {run : RunResult} : Reports .run (.ok run) (.affected run.changes)
  | failed {c : Call} {err : Error} : err.message.utf8ByteSize ≤ 512 →
    Reports c (.error err) (.failed err.message)
  | cut {c : Call} {err : Error} {kept : String} : 512 < err.message.utf8ByteSize →
    Text.Fills 512 err.message kept → Reports c (.error err) (.failed (kept ++ "..."))

/-- The outcome of a call is right for its result. -/
theorem Call.reports_outcome (c : Call) (result : Except Error c.Answer) :
    Outcome.Reports c result (c.outcome result) := by
  cases result with
  | ok answer =>
    cases c with
    | get => exact .found
    | all => exact .rows
    | run => exact .affected
  | error err =>
    show Outcome.Reports c (.error err) (.failed (Text.ellipsized 512 err.message))
    -- an answer is told in numbers, an error with its text, which may be too long
    by_cases hfits : err.message.utf8ByteSize ≤ 512
    · rw [Text.ellipsized_of_le hfits]
      exact .failed hfits
    · have hlong : 512 < err.message.utf8ByteSize := Nat.lt_of_not_le hfits
      obtain ⟨kept, hkept, hcut⟩ := Text.ellipsized_of_lt hlong
      rw [hcut]
      exact .cut hlong hkept

namespace HookedEngine

/-- With hooks that were added one after the other, after any calls on a statement: the single hooks
are asked in order until one refuses.  If one does, the call is refused with its reason and nothing
else happens.  Otherwise the engine is used for the text that they leave, the caller gets the result,
and all single hooks are told in order how it ended, with the context that they left. -/
theorem execute_lifecycle (inner : Engine σ π) (tag : Option String) (hooks : List (Hook σ))
    (sql : String) (past : List (Request σ)) {c : Call} {params : Params} {st : σ}
    {s s' : HookedStatement (Labelled π)} {t t' : Traced σ} {result : Except Error c.Answer}
    (hpast : ((Hook.tracedAll 0 hooks).foldl addHook { inner := inner.traced, tag }).session
      (past.map Request.traced) { sql } ⟨st, []⟩ = (s, t))
    (hcall : ((Hook.tracedAll 0 hooks).foldl addHook { inner := inner.traced, tag }).execute
      c s params t = ((result, s'), t')) :
    let e : HookedEngine σ π := hooks.foldl addHook { inner, tag }
    e.session past { sql } st = (s.erased, t.state) ∧
    e.execute c s.erased params t.state = ((result, s'.erased), t'.state) ∧
    ∃ asked answer, Asked (Hook.countAll hooks) 0 (e.context sql params) asked answer ∧
      match answer with
      | .error reason => t'.journal = t.journal ++ asked ∧ result = .error (.aborted reason)
      | .ok final => ∃ used outcome,
        t'.journal
            = t.journal ++ asked ++ used ++ tellings 0 (Hook.countAll hooks) final outcome ∧
          Used c s params final.execSql used result s' ∧ Outcome.Reports c result outcome := by
  intro e
  -- adding hooks that keep a journal gives the engine that keeps one
  have htraced : (Hook.tracedAll 0 hooks).foldl addHook { inner := inner.traced, tag } = e.traced :=
    (traced_foldl_addHook hooks { inner, tag }).symm
  have hcount : e.hookCount = Hook.countAll hooks :=
    (hookCount_foldl_addHook hooks { inner, tag }).trans (Nat.zero_add _)
  rw [htraced] at hpast hcall
  obtain ⟨hsession, herased, htracked, events, hjournal, hexecuted⟩ :=
    e.executed_after_session past hpast hcall
  refine ⟨hsession, herased, ?_⟩
  rw [← hcount, hjournal, ← htracked.sql_eq]
  -- whatever the hooks answered, the execution went on as is right for that
  generalize (e.ask (e.context s.sql params) t.state).1 = answer at hexecuted
  cases hexecuted with
  | @refused _ reason hasked => exact ⟨events, .error reason, hasked, rfl, rfl⟩
  | @used asked used final _ _ hasked hused =>
    refine ⟨asked, .ok final, hasked, used, c.outcome result, ?_, hused, c.reports_outcome result⟩
    rw [List.append_assoc, List.append_assoc, List.append_assoc]

/-- Three hooks, two of them nested, and a second call, before which one of them puts in a text that
the engine cannot prepare. -/
theorem execute_lifecycle_nested :
    let inner : Engine Nat Unit := {
      prepare := fun sql => pure (if sql = "SELECT" then .error (.execution "syntax") else .ok ())
      execute := fun
        | .get, p, _ => pure (.ok none, p)
        | .all, p, _ => pure (.ok [], p)
        | .run, p, _ => pure (.ok {}, p) }
    let second : Hook Nat := .single
      (fun _ => do return if (← get) = 0 then .proceed else .substitute "SELECT" none)
      fun _ _ => modify (· + 1)
    let third : Hook Nat := .single
      (fun ctx => return if ctx.verb = .delete then .abort "no" else .proceed) fun _ _ => pure ()
    let hooks : List (Hook Nat) := [.composite [.plain, .composite [second]], third]
    let e : HookedEngine _ _ :=
      (Hook.tracedAll 0 hooks).foldl addHook { inner := inner.traced, tag := some "x" }
    let past : List (Request Nat) := [⟨.run, {}, id⟩]
    let before := e.session (past.map Request.traced) { sql := "SELECT 1" } ⟨0, []⟩
    let after := e.execute .all before.1 {} before.2
    let ctx : QueryContext := { QueryContext.ofSql "SELECT 1" 0 with tag := some "x" }
    failureOf after.1.1 = some (.execution "syntax") ∧
    ∃ asked final used outcome, Asked 3 0 ctx asked (.ok final) ∧
      after.2.journal = before.2.journal ++ asked ++ used ++ tellings 0 3 final outcome ∧
      Used .all before.1 {} final.execSql used after.1.1 after.1.2 ∧
      Outcome.Reports .all after.1.1 outcome := by
  intro inner second third hooks e past before after ctx
  have hpast : e.session (past.map Request.traced) { sql := "SELECT 1" } ⟨0, []⟩
      = (before.1, before.2) := rfl
  have hcall : e.execute .all before.1 {} before.2 = ((after.1.1, after.1.2), after.2) := by
    rw [Prod.mk.eta]
  have hfailure : failureOf after.1.1 = some (.execution "syntax") := by decide +kernel
  obtain ⟨-, -, asked, answer, hasked, hanswer⟩ :=
    execute_lifecycle inner (some "x") hooks "SELECT 1" past hpast hcall
  cases answer with
  | error reason =>
    rw [hanswer.2] at hfailure
    cases hfailure
  | ok final =>
    obtain ⟨used, outcome, h⟩ := hanswer
    exact ⟨hfailure, asked, final, used, outcome, hasked, h⟩

end HookedEngine

end SqlAssembly

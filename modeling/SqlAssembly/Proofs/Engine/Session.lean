import SqlAssembly.Proofs.Engine.Traced

namespace SqlAssembly

/-!
# Calls on one statement

A statement of an engine with hooks is called again and again, and the state may change in between.
The statement at hand is always the one that the engine prepared last, so the engine never executes
another text than the one that is due.

* `Request`, `HookedEngine.session` — calls on a statement, one after another;
* `Traced.lastPrepared` — the text that the engine prepared last, by the journal;
* `HookedStatement.Tracked` — the statement at hand is the one of the journal;
* `HookedEngine.tracked_session` — it is, whatever was called;
* `HookedEngine.session_executes_due_text` — what each call makes of the engine.
-/

open Traced (Event Erases erases_pure)

variable {σ π : Type}

/-! ### Sessions -/

/-- A call on a statement, and whatever else happens to the state until the next one. -/
structure Request (σ : Type) where
  call : Call
  params : Params
  meanwhile : σ → σ := id

/-- The same call over a state with a journal. -/
def Request.traced (r : Request σ) : Request (Traced σ) where
  call := r.call
  params := r.params
  meanwhile t := { t with state := r.meanwhile t.state }

namespace HookedEngine

/-- Calls on a statement, one after another. -/
def session (e : HookedEngine σ π) :
    List (Request σ) → HookedStatement π → StateM σ (HookedStatement π)
  | [], s => return s
  | r :: rest, s => do
    let (_, s) ← e.execute r.call s r.params
    modify r.meanwhile
    e.session rest s

/-- Apart from the journal a session is what it was. -/
theorem erases_session (e : HookedEngine σ π) (requests : List (Request σ))
    (s : HookedStatement (Labelled π)) :
    Erases HookedStatement.erased (e.traced.session (requests.map Request.traced) s)
      (e.session requests s.erased) := by
  induction requests generalizing s with
  | nil => exact erases_pure HookedStatement.erased s
  | cons r rest ih =>
    -- what happens between two calls happens to the state and not to the journal
    have hmeanwhile : Erases id (modify r.traced.meanwhile : StateM (Traced σ) PUnit)
        (modify r.meanwhile) := fun t => rfl
    refine (e.erases_execute r.call s r.params).bind fun x => ?_
    exact hmeanwhile.bind fun _ => ih x.2

end HookedEngine

/-! ### The text that was prepared last -/

namespace Traced

/-- The entry is about the engine, not about a hook. -/
def Event.ofEngine : Event → Bool
  | .asked .. | .told .. => false
  | .prepared .. | .executed .. => true

/-- The text that the engine has prepared, if it did not fail. -/
def Event.ready? : Event → Option String
  | .prepared sql none => some sql
  | _ => none

/-- The text that the engine prepared last. -/
def lastPrepared (journal : List Event) : Option String := (journal.filterMap Event.ready?).getLast?

/-- What was prepared later counts, if there is any. -/
theorem lastPrepared_append (journal events : List Event) :
    lastPrepared (journal ++ events) = (lastPrepared events).or (lastPrepared journal) := by
  rw [lastPrepared, List.filterMap_append, List.getLast?_append]
  rfl

/-- What hooks leave in the journal says nothing about what was prepared. -/
theorem lastPrepared_eq_none {events : List Event} (h : ∀ event ∈ events, event.ofEngine = false) :
    lastPrepared events = none := by
  have hready : ∀ event ∈ events, event.ready? = none := by
    intro event hevent
    have hhook := h event hevent
    cases event with
    | asked | told => rfl
    | prepared | executed => cases hhook
  rw [lastPrepared, List.filterMap_eq_nil_iff.mpr hready]
  rfl

end Traced

/-- While hooks are asked, the engine is not used. -/
theorem Asked.not_ofEngine {last n : Nat} {ctx : QueryContext} {events : List Event}
    {answer : Except String QueryContext} (h : Asked last n ctx events answer) :
    ∀ event ∈ events, event.ofEngine = false := by
  induction h with
  | done => exact List.forall_mem_nil _
  | passed _ _ _ ih => exact List.forall_mem_cons.mpr ⟨rfl, ih⟩
  | refused => exact List.forall_mem_singleton.mpr rfl

/-- While hooks are told, the engine is not called. -/
theorem not_ofEngine_tellings (n count : Nat) (ctx : QueryContext) (outcome : Outcome) :
    ∀ event ∈ tellings n count ctx outcome, event.ofEngine = false := by
  intro event hevent
  obtain ⟨hook, -, rfl⟩ := List.mem_map.mp hevent
  rfl

/-- Of events that are not about the engine, none is left. -/
theorem filter_ofEngine_eq_nil {events : List Event}
    (h : ∀ event ∈ events, event.ofEngine = false) : events.filter Event.ofEngine = [] :=
  List.filter_eq_nil_iff.mpr fun event hevent => Bool.eq_false_iff.mp (h event hevent)

/-! ### The statement at hand -/

/-- The statement of a text, and the statement at hand is the one that the engine prepared last. -/
structure HookedStatement.Tracked (sql : String) (journal : List Event)
    (s : HookedStatement (Labelled π)) : Prop where
  sql_eq : s.sql = sql
  honest : s.Honest
  text_eq : s.text? = Traced.lastPrepared journal

open Traced (lastPrepared lastPrepared_append lastPrepared_eq_none)

/-- What hooks leave in the journal does not change which statement is at hand. -/
theorem HookedStatement.Tracked.append_hooks {s : HookedStatement (Labelled π)} {sql : String}
    {journal events : List Event} (h : s.Tracked sql journal)
    (hevents : ∀ event ∈ events, event.ofEngine = false) : s.Tracked sql (journal ++ events) := by
  refine ⟨h.sql_eq, h.honest, ?_⟩
  rw [h.text_eq, lastPrepared_append, lastPrepared_eq_none hevents]
  rfl

namespace HookedEngine

variable {e : HookedEngine σ π} {c : Call} {s s' : HookedStatement (Labelled π)} {params : Params}
  {sql due : String} {journal events : List Event} {result : Except Error c.Answer}
  {answer : Except String QueryContext}

/-- A new statement is at hand if the engine prepared it, and else the old one is kept. -/
theorem Used.tracked (h : Used c s params due events result s') (hs : s.Tracked sql journal) :
    s'.Tracked sql (journal ++ events) := by
  obtain ⟨hsql, hhonest, htext⟩ := hs
  cases h with
  | unprepared _ =>
    refine ⟨hsql, hhonest, ?_⟩
    rw [htext, lastPrepared_append]
    rfl
  | prepared _ =>
    refine ⟨hsql, fun x hx => Option.some.inj hx ▸ rfl, ?_⟩
    rw [lastPrepared_append]
    rfl
  | kept hdue =>
    refine ⟨hsql, fun x hx => Option.some.inj hx ▸ rfl, ?_⟩
    rw [lastPrepared_append, ← htext, hdue]
    rfl

/-- All that is left when the engine is used is about the engine. -/
theorem Used.ofEngine (h : Used c s params due events result s') :
    ∀ event ∈ events, event.ofEngine = true := by
  cases h with
  | unprepared | kept => exact List.forall_mem_singleton.mpr rfl
  | prepared => exact List.forall_mem_cons.mpr ⟨rfl, List.forall_mem_singleton.mpr rfl⟩

/-- An execution leaves the statement that the journal tells of. -/
theorem Executed.tracked (h : e.Executed c s params answer events result s')
    (hs : s.Tracked sql journal) : s'.Tracked sql (journal ++ events) := by
  cases h with
  | refused hasked => exact hs.append_hooks hasked.not_ofEngine
  | used hasked hused =>
    have htracked := hused.tracked (hs.append_hooks hasked.not_ofEngine)
    rw [← List.append_assoc, ← List.append_assoc]
    exact htracked.append_hooks (not_ofEngine_tellings _ _ _ _)

/-- Whatever is called, the statement at hand is the one that the engine prepared last. -/
theorem tracked_session (e : HookedEngine σ π) (requests : List (Request σ)) (t : Traced σ)
    (hs : s.Tracked sql t.journal) :
    (e.traced.session (requests.map Request.traced) s t).1.Tracked sql
      (e.traced.session (requests.map Request.traced) s t).2.journal := by
  induction requests generalizing s t with
  | nil => exact hs
  | cons r rest ih =>
    obtain ⟨events, hjournal, hexecuted⟩ := e.executed_execute r.call r.params t hs.honest
    have hnext := hexecuted.tracked hs
    rw [← hjournal] at hnext
    -- the journal is the same when the next call begins
    exact ih (r.traced.meanwhile (e.traced.execute r.call s r.params t).2) hnext

/-- A call behind any calls on a statement is an execution of a statement that the journal tells of,
and apart from the journal all these calls are what they were. -/
theorem executed_after_session (e : HookedEngine σ π) (past : List (Request σ)) {st : σ}
    {t t' : Traced σ} (hpast : e.traced.session (past.map Request.traced) { sql } ⟨st, []⟩ = (s, t))
    (hcall : e.traced.execute c s params t = ((result, s'), t')) :
    e.session past { sql } st = (s.erased, t.state) ∧
    e.execute c s.erased params t.state = ((result, s'.erased), t'.state) ∧
    s.Tracked sql t.journal ∧
    ∃ events, t'.journal = t.journal ++ events ∧
      e.Executed c s params (e.ask (e.context s.sql params) t.state).1 events result s' := by
  have hsession := e.erases_session past { sql } ⟨st, []⟩
  -- a new statement has nothing at hand, and nothing was prepared before
  have htracked : s.Tracked sql t.journal := by
    have hnew : ({ sql } : HookedStatement (Labelled π)).Tracked sql [] := ⟨rfl, nofun, rfl⟩
    have hafter := e.tracked_session past ⟨st, []⟩ hnew
    rwa [hpast] at hafter
  have herased := e.erases_execute c s params t
  have hexecuted := e.executed_execute c params t htracked.honest
  rw [hpast] at hsession
  rw [hcall] at herased hexecuted
  exact ⟨hsession, herased, htracked, hexecuted⟩

/-- After any calls on a statement: the engine is not used if the hooks refuse, and then the
statement at hand is kept.  Otherwise the text that they leave is due.  If the engine prepared that
text last, the statement is executed with the parameters of the call.  If not, the text is prepared,
and executed unless that failed; and if it failed, the statement at hand is kept. -/
theorem execute_after_session (e : HookedEngine σ π) (past : List (Request σ)) {st : σ}
    {t t' : Traced σ} (hpast : e.traced.session (past.map Request.traced) { sql } ⟨st, []⟩ = (s, t))
    (hcall : e.traced.execute c s params t = ((result, s'), t')) :
    e.session past { sql } st = (s.erased, t.state) ∧
    e.execute c s.erased params t.state = ((result, s'.erased), t'.state) ∧
    s.text? = lastPrepared t.journal ∧
    ∃ events, t'.journal = t.journal ++ events ∧
      match (e.ask (e.context sql params) t.state).1 with
      | .error reason =>
        events.filter Event.ofEngine = [] ∧ result = .error (.aborted reason) ∧ s' = s
      | .ok final =>
        (lastPrepared t.journal = some final.execSql →
          events.filter Event.ofEngine = [.executed final.execSql c params result]) ∧
        (lastPrepared t.journal ≠ some final.execSql →
          events.filter Event.ofEngine
              = [.prepared final.execSql none, .executed final.execSql c params result] ∨
            ∃ err, events.filter Event.ofEngine = [.prepared final.execSql (some err)] ∧
              result = .error err ∧ s' = s) := by
  obtain ⟨hsession, herased, htracked, events, hjournal, hexecuted⟩ :=
    e.executed_after_session past hpast hcall
  rw [htracked.sql_eq] at hexecuted
  refine ⟨hsession, herased, htracked.text_eq, events, hjournal, ?_⟩
  rw [← htracked.text_eq]
  cases hanswer : (e.ask (e.context sql params) t.state).1 with
  | error reason =>
    rw [hanswer] at hexecuted
    cases hexecuted with
    | refused hasked => exact ⟨filter_ofEngine_eq_nil hasked.not_ofEngine, rfl, rfl⟩
  | ok final =>
    rw [hanswer] at hexecuted
    cases hexecuted with
    | used hasked hused =>
      -- between asking and telling the engine was used, and only that part of the journal is about
      -- it
      rw [List.filter_append, List.filter_append, filter_ofEngine_eq_nil hasked.not_ofEngine,
        filter_ofEngine_eq_nil (not_ofEngine_tellings _ _ _ _), List.nil_append, List.append_nil,
        List.filter_eq_self.mpr hused.ofEngine]
      cases hused with
      | unprepared hdue => exact ⟨fun h => absurd h hdue, fun _ => .inr ⟨_, rfl, rfl, rfl⟩⟩
      | prepared hdue => exact ⟨fun h => absurd h hdue, fun _ => .inl rfl⟩
      | kept hdue => exact ⟨fun _ => rfl, fun h => absurd hdue h⟩

/-- A statement that was executed, vetoed, given a text that cannot be prepared, and then its own
text again. -/
theorem execute_after_session_failures :
    let inner : Engine Verdict Unit := {
      prepare := fun sql => pure (if sql = "SELECT" then .error (.execution "syntax") else .ok ())
      execute := fun
        | .get, p, _ => pure (.ok none, p)
        | .all, p, _ => pure (.ok [], p)
        | .run, p, _ => pure (.error (.execution "locked"), p) }
    let hook : Hook Verdict := .single (fun _ => get) fun _ _ => pure ()
    let e : HookedEngine Verdict Unit := { inner, hook := some hook }
    let past : List (Request Verdict) := [⟨.run, {}, fun _ => .abort "no"⟩,
      ⟨.get, {}, fun _ => .substitute "SELECT" none⟩, ⟨.get, {}, fun _ => .proceed⟩]
    let before := e.traced.session (past.map Request.traced) ⟨"SELECT 1", none⟩ ⟨.proceed, []⟩
    let after := e.traced.execute .all before.1 ⟨[("$1", .null)]⟩ before.2
    ∃ events, after.2.journal = before.2.journal ++ events ∧
      events.filter Event.ofEngine = [.executed "SELECT 1" .all ⟨[("$1", .null)]⟩ (.ok [])] := by
  intro inner hook e past before after
  have hpast : e.traced.session (past.map Request.traced) ⟨"SELECT 1", none⟩ ⟨.proceed, []⟩
      = (before.1, before.2) := rfl
  have hcall : e.traced.execute .all before.1 ⟨[("$1", .null)]⟩ before.2
      = ((after.1.1, after.1.2), after.2) := rfl
  obtain ⟨-, -, -, events, hjournal, hkept, -⟩ := execute_after_session e past hpast hcall
  have hprepared : lastPrepared before.2.journal = some "SELECT 1" := by decide +kernel
  exact ⟨events, hjournal, hkept hprepared⟩

end HookedEngine

end SqlAssembly

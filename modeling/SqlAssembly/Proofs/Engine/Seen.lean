import SqlAssembly.Proofs.Engine.Session
import SqlAssembly.Proofs.Hook.Seen

namespace SqlAssembly

/-!
# What hooks see of an execution

Every hook of an engine, single or composite and however deep it stands, is asked and told about the
context of the statement with the texts that the hooks before it put in last.  The text for the
engine in it, when hooks are told how it ended, is the one that the engine was given.

* `HookedEngine.watched` — the engine in which composites also write down what they see;
* `Traced.Event.text?` — the texts that the engine was given;
* `HookedEngine.Executed.shown` — what one execution leaves in the journal is as it is due;
* `HookedEngine.Executed.text_of_told` — hooks are told about the text that the engine was given;
* `HookedEngine.contexts_after_session` — both, after any calls on a statement.
-/

open Traced (Event Shown shown_of_forall lastRewrite lastOverride)

variable {σ π : Type}

/-! ### The texts that the engine was given -/

/-- The text that the engine was given, to prepare it or to execute it. -/
def Traced.Event.text? : Event → Option String
  | .asked .. | .told .. => none
  | .prepared sql _ => some sql
  | .executed sql .. => some sql

/-- Entries about hooks say nothing of texts that the engine was given. -/
theorem filterMap_text?_eq_nil {events : List Event}
    (h : ∀ event ∈ events, event.ofEngine = false) : events.filterMap Event.text? = [] := by
  refine List.filterMap_eq_nil_iff.mpr fun event hevent => ?_
  have hhook := h event hevent
  cases event with
  | asked | told => rfl
  | prepared | executed => cases hhook

namespace HookedEngine

/-! ### Engines that are watched -/

/-- The engine with one more hook at the front of each composite, which sees what that does. -/
def watched (e : HookedEngine σ π) : HookedEngine σ π := { e with hook := e.hook.map Hook.watched }

/-- A watched engine asks as before. -/
theorem ask_watched (e : HookedEngine σ π) : e.watched.ask = e.ask := by
  funext ctx
  unfold ask watched
  cases e.hook with
  | none => rfl
  | some h =>
    dsimp only [Option.map_some]
    rw [h.before_watched]

/-- A watched engine tells as before. -/
theorem tell_watched (e : HookedEngine σ π) : e.watched.tell = e.tell := by
  funext ctx outcome
  unfold tell watched
  cases e.hook with
  | none => rfl
  | some h =>
    dsimp only [Option.map_some]
    rw [h.after_watched]

/-- Watching composites changes nothing about an execution. -/
theorem execute_watched (e : HookedEngine σ π) : e.watched.execute = e.execute := by
  funext c s params
  unfold execute
  rw [ask_watched, tell_watched]
  rfl

/-- A session of calls goes as it does unwatched. -/
theorem session_watched (e : HookedEngine σ π) : e.watched.session = e.session := by
  funext requests s
  induction requests generalizing s with
  | nil => rfl
  | cons r rest ih =>
    rw [session, session, execute_watched]
    simp only [ih]

/-! ### One execution -/

variable {e : HookedEngine σ π} {c : Call} {s s' : HookedStatement (Labelled π)} {params : Params}
  {events : List Event} {result : Except Error c.Answer} {answer : Except String QueryContext}

/-- The engine is given the text of the context, at least once, and nothing else. -/
theorem Used.shows {ctx : QueryContext} (h : Used c s params ctx.execSql events result s') :
    events ≠ [] ∧ ∀ event ∈ events, (event.rewrite? = none ∧ event.override? = none) ∧
      event.Shows c params ctx ∧ event.text? = some ctx.execSql := by
  cases h with
  | unprepared =>
    exact ⟨List.cons_ne_nil _ _, List.forall_mem_singleton.mpr ⟨⟨rfl, rfl⟩, rfl, rfl⟩⟩
  | prepared =>
    refine ⟨List.cons_ne_nil _ _, List.forall_mem_cons.mpr ⟨⟨⟨rfl, rfl⟩, rfl, rfl⟩, ?_⟩⟩
    exact List.forall_mem_singleton.mpr ⟨⟨rfl, rfl⟩, ⟨rfl, rfl, rfl⟩, rfl⟩
  | kept =>
    exact ⟨List.cons_ne_nil _ _, List.forall_mem_singleton.mpr ⟨⟨rfl, rfl⟩, ⟨rfl, rfl, rfl⟩, rfl⟩⟩

/-- All hooks are told about one context, and no text is put in when they are. -/
theorem shows_tellings (c : Call) (params : Params) (n count : Nat) (ctx : QueryContext)
    (outcome : Outcome) :
    ∀ event ∈ tellings n count ctx outcome, (event.rewrite? = none ∧ event.override? = none) ∧
      event.Shows c params ctx := by
  intro event hevent
  obtain ⟨hook, -, rfl⟩ := List.mem_map.mp hevent
  exact ⟨⟨rfl, rfl⟩, rfl⟩

/-- What one execution leaves in the journal is as it is due. -/
theorem Executed.shown (h : e.Executed c s params answer events result s') :
    Shown c params (e.context s.sql params) events := by
  have hctx : (e.context s.sql params).Consistent := rfl
  cases h with
  | refused hasked => exact (hasked.shown hctx c params).1
  | @used asked used final result s' hasked hused =>
    obtain ⟨hshown, hfinal⟩ := hasked.shown hctx c params
    obtain ⟨-, hshows⟩ := hused.shows
    -- behind the answers no more texts are put in, so all the rest is about the same context
    have hrest : ∀ event ∈ used ++ tellings 0 e.hookCount final (c.outcome result),
        (event.rewrite? = none ∧ event.override? = none) ∧ event.Shows c params final := by
      rw [List.forall_mem_append]
      exact ⟨fun event hevent => ⟨(hshows event hevent).1, (hshows event hevent).2.1⟩,
        shows_tellings c params 0 e.hookCount final _⟩
    obtain rfl := hfinal final rfl
    rw [List.append_assoc]
    exact hshown.append (shown_of_forall (QueryContext.consistent_after _ _) hrest)

/-- If hooks are told how an execution ended, the engine was given the text that is in the context
they see, and no other one. -/
theorem Executed.text_of_told (h : e.Executed c s params answer events result s') {hook : Nat}
    {ctx : QueryContext} {outcome : Outcome} (htold : .told hook ctx outcome ∈ events) :
    events.filterMap Event.text? ≠ [] ∧
      ∀ sql ∈ events.filterMap Event.text?, sql = ctx.execSql := by
  cases h with
  | refused hasked => exact absurd htold (hasked.told_not_mem hook ctx outcome)
  | @used asked used final result s' hasked hused =>
    obtain ⟨hne, hshows⟩ := hused.shows
    -- only the tellings at the end tell of hooks, and all of them have the last context
    have hctx : ctx = final := by
      rcases List.mem_append.mp htold with htold | htold
      · rcases List.mem_append.mp htold with htold | htold
        · exact absurd htold (hasked.told_not_mem hook ctx outcome)
        · exact absurd (hshows _ htold).2.2 nofun
      · obtain ⟨_, -, heq⟩ := List.mem_map.mp htold
        injection heq with _ hctx _
        exact hctx.symm
    rw [List.filterMap_append, List.filterMap_append, filterMap_text?_eq_nil hasked.not_ofEngine,
      filterMap_text?_eq_nil (not_ofEngine_tellings _ _ _ _), List.nil_append, List.append_nil,
      hctx]
    -- the engine was given some text, and whatever it was given is that one
    constructor
    · obtain ⟨event, rest, rfl⟩ := List.exists_cons_of_ne_nil hne
      have hfirst := (hshows event List.mem_cons_self).2.2
      exact List.ne_nil_of_mem (List.mem_filterMap.mpr ⟨event, List.mem_cons_self, hfirst⟩)
    · intro sql hsql
      obtain ⟨event, hevent, htext⟩ := List.mem_filterMap.mp hsql
      rw [(hshows event hevent).2.2] at htext
      exact (Option.some.inj htext).symm

/-! ### After any calls -/

/-- After any calls on a statement, an execution is one of the engine and only watches it, and every
entry that it leaves in the journal is about the context that is due: the verb is that of the
canonical text, which is the one that was put in last, or that of the statement; the text for the
engine is the one that was put in last, or that of the statement; the number of parameters is that
of the call, the tag is that of the engine, and there are no fields.  Hooks that are told how it
ended see the text that the engine was given. -/
theorem contexts_after_session (e : HookedEngine σ π) {sql : String} (past : List (Request σ))
    {st : σ} {t t' : Traced σ}
    (hpast : e.watched.traced.session (past.map Request.traced) { sql } ⟨st, []⟩ = (s, t))
    (hcall : e.watched.traced.execute c s params t = ((result, s'), t')) :
    e.session past { sql } st = (s.erased, t.state) ∧
    e.execute c s.erased params t.state = ((result, s'.erased), t'.state) ∧
    ∃ events, t'.journal = t.journal ++ events ∧
      (∀ before event behind, events = before ++ event :: behind →
        let canonicalSql := (lastOverride before).getD sql
        event.Shows c params
          { canonicalSql, execSql := (lastRewrite before).getD sql, paramCount := params.length,
            verb := Verb.ofSql canonicalSql, tag := e.tag, fields := [] }) ∧
      ∀ hook ctx outcome, .told hook ctx outcome ∈ events →
        events.filterMap Event.text? ≠ [] ∧
        ∀ text ∈ events.filterMap Event.text?, text = ctx.execSql := by
  obtain ⟨hsession, herased, htracked, events, hjournal, hexecuted⟩ :=
    e.watched.executed_after_session past hpast hcall
  -- the journal is that of the watched engine, results and states are those of the other
  rw [session_watched] at hsession
  rw [execute_watched] at herased
  have hshown := hexecuted.shown
  rw [htracked.sql_eq] at hshown
  exact ⟨hsession, herased, events, hjournal, hshown,
    fun hook ctx outcome htold => hexecuted.text_of_told htold⟩

/-- The second call on a statement, with nested hooks: the first of them puts in both texts, and the
last one the old text for the engine again, so the statement that runs is not the canonical one. -/
theorem contexts_after_session_restored :
    let inner : Engine Nat Unit := {
      prepare := fun _ => pure (.ok ())
      execute := fun
        | .get, p, _ => pure (.ok none, p)
        | .all, p, _ => pure (.ok [], p)
        | .run, p, _ => pure (.ok {}, p) }
    let put (exec : String) (canonical : Option String) : Hook Nat :=
      .single (fun _ => pure (.substitute exec canonical)) fun _ _ => modify (· + 1)
    let h : Hook Nat := .composite
      [.composite [put "DELETE FROM t" (some "DELETE FROM t"), .plain], put "SELECT 1" none]
    let e : HookedEngine Nat Unit := { inner, hook := some h, tag := some "x" }
    let past : List (Request Nat) := [⟨.get, {}, id⟩]
    let before := e.watched.traced.session (past.map Request.traced) ⟨"SELECT 1", none⟩ ⟨0, []⟩
    let after := e.watched.traced.execute .all before.1 ⟨[("$1", .null)]⟩ before.2
    lastRewrite after.2.journal = some "SELECT 1" ∧
    lastOverride after.2.journal = some "DELETE FROM t" ∧
    ∃ events, after.2.journal = before.2.journal ++ events ∧
      (∀ front event behind, events = front ++ event :: behind →
        let canonicalSql := (lastOverride front).getD "SELECT 1"
        event.Shows .all ⟨[("$1", .null)]⟩
          { canonicalSql, execSql := (lastRewrite front).getD "SELECT 1", paramCount := 1,
            verb := Verb.ofSql canonicalSql, tag := some "x", fields := [] }) ∧
      ∀ hook ctx outcome, .told hook ctx outcome ∈ events →
        ∀ text ∈ events.filterMap Event.text?, text = ctx.execSql := by
  intro inner put h e past before after
  have hpast : e.watched.traced.session (past.map Request.traced) ⟨"SELECT 1", none⟩ ⟨0, []⟩
      = (before.1, before.2) := rfl
  have hcall : e.watched.traced.execute .all before.1 ⟨[("$1", .null)]⟩ before.2
      = ((after.1.1, after.1.2), after.2) := by rw [Prod.eta]
  obtain ⟨-, -, events, hjournal, hshown, htold⟩ := contexts_after_session e past hpast hcall
  exact ⟨by decide +kernel, by decide +kernel, events, hjournal, hshown,
    fun hook ctx outcome h => (htold hook ctx outcome h).2⟩

end HookedEngine

end SqlAssembly

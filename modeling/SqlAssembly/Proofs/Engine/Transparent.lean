import SqlAssembly.Engine.Execution
import SqlAssembly.Hook.Log
import SqlAssembly.Proofs.Engine.Traced

namespace SqlAssembly

/-!
# Hooks that let everything pass

A statement can be executed on an engine or on the same engine with hooks.  Hooks that let every
statement pass make no difference to the answer or to what the engine does, although with hooks a
text is only prepared when it is executed.

* `Engine.beside` — an engine among surroundings that hold the log and the hooks' own states;
* `Engine.perform` — preparing a text and executing it;
* `Hook.Passes` — a hook all of whose single hooks let every statement pass;
* `HookedEngine.projects_perform` — with such hooks a text is prepared and executed as without;
* `Statement.execute_transparent` — and so is a statement.
-/

variable {σ ε ρ π π' α β γ : Type}

/-! ### An engine and its surroundings -/

/-- The surroundings of an engine keep its log. -/
instance [LogSink ρ] : LogSink (ε × ρ) where
  record event s := (s.1, LogSink.record event s.2)

namespace Engine

/-- The engine among surroundings that it does not see. -/
def beside (e : Engine ε π) (ρ : Type) : Engine (ε × ρ) π where
  prepare sql := fun s =>
    let (answer, s₁) := e.prepare sql s.1
    (answer, s₁, s.2)
  execute c p params := fun s =>
    let (x, s₁) := e.execute c p params s.1
    (x, s₁, s.2)

/-- Among its surroundings an engine prepares as it does alone. -/
theorem projects_beside_prepare (e : Engine ε π) (sql : String) :
    Projects Prod.fst id ((e.beside ρ).prepare sql) (e.prepare sql) := fun _ => rfl

theorem projects_beside_execute (e : Engine ε π) (c : Call) (p : π) (params : Params) :
    Projects Prod.fst id ((e.beside ρ).execute c p params) (e.execute c p params) := fun _ => rfl

/-- Prepares a text and executes it. -/
def perform (e : Engine σ π) (c : Call) (sql : String) (params : Params) :
    StateM σ (Except Error c.Answer) := do
  match ← e.prepare sql with
  | .error err => return .error err
  | .ok stmt => return (← e.execute c stmt params).1

/-- Preparing and executing go among the surroundings as they do alone. -/
theorem projects_beside_perform (e : Engine ε π) (c : Call) (sql : String) (params : Params) :
    Projects Prod.fst id ((e.beside ρ).perform c sql params) (e.perform c sql params) := by
  refine (e.projects_beside_prepare sql).bind fun answer => ?_
  cases answer with
  | error err => exact fun _ => rfl
  | ok stmt => exact (e.projects_beside_execute c stmt params).bind fun x _ => rfl

/-- What an engine is called for to execute a text: the text cannot be prepared, or it is prepared
and then executed. -/
inductive Calls (c : Call) (sql : String) (params : Params) :
    Except Error c.Answer → List Traced.Event → Prop
  | unprepared {err : Error} : Calls c sql params (.error err) [.prepared sql (some err)]
  | prepared {result : Except Error c.Answer} :
    Calls c sql params result [.prepared sql none, .executed sql c params result]

/-- The calls that preparing and executing a text leaves in the journal. -/
theorem calls_perform (e : Engine σ π) (c : Call) (sql : String) (params : Params) (t : Traced σ) :
    ∃ calls, (e.traced.perform c sql params t).2.journal = t.journal ++ calls ∧
      Calls c sql params (e.traced.perform c sql params t).1 calls := by
  rcases hprepare : e.prepare sql t.state with ⟨err | stmt, s⟩
  · have hperform : e.traced.perform c sql params t = _ := bind_of_eq (prepare_traced hprepare)
    rw [hperform]
    exact ⟨_, rfl, .unprepared⟩
  · rcases hexecute : e.execute c stmt params s with ⟨⟨result, stmt'⟩, s'⟩
    have hperform : e.traced.perform c sql params t = _ :=
      (bind_of_eq (prepare_traced hprepare)).trans (bind_of_eq (execute_traced hexecute))
    rw [hperform]
    exact ⟨_, List.append_assoc _ _ _, .prepared⟩

end Engine

/-! ### Hooks -/

/-- Whatever the state is, the answer is `a`, and the engine is not touched. -/
def Idle (a : α) (x : StateM (ε × ρ) α) : Prop := ∀ s, (x s).1 = a ∧ (x s).2.1 = s.1

namespace Idle

theorem idle_pure (a : α) : Idle a (pure a : StateM (ε × ρ) α) := fun _ => ⟨rfl, rfl⟩

/-- Writing to the log does not touch the engine. -/
theorem idle_log [LogSink ρ] (event : LogEvent) : Idle () (log event : StateM (ε × ρ) Unit) :=
  fun _ => ⟨rfl, rfl⟩

/-- What comes after an idle step comes at once. -/
theorem projects_bind {a : α} {x : StateM (ε × ρ) α} {k : α → StateM (ε × ρ) β} {f : β → γ}
    {y : StateM ε γ} (h : Idle a x) (hk : Projects Prod.fst f (k a) y) :
    Projects Prod.fst f (x >>= k) y := by
  intro s
  have hanswer : (x >>= k) s = k (x s).1 (x s).2 := rfl
  rw [hanswer, (h s).1, ← (h s).2]
  exact hk (x s).2

/-- Idle computations that follow each other are idle. -/
theorem bind {a : α} {b : β} {x : StateM (ε × ρ) α} {k : α → StateM (ε × ρ) β} (h : Idle a x)
    (hk : Idle b (k a)) : Idle b (x >>= k) := by
  intro s
  have hanswer : (x >>= k) s = k (x s).1 (x s).2 := rfl
  rw [hanswer, (h s).1, ← (h s).2]
  exact hk (x s).2

end Idle

namespace Hook

/-- All single hooks let every statement pass, whatever the state is, and they do not touch the
engine. -/
inductive Passes : Hook (ε × ρ) → Prop
  | single {ask : QueryContext → StateM (ε × ρ) Verdict}
    {tell : QueryContext → SqlAssembly.Outcome → StateM (ε × ρ) Unit} :
    (∀ ctx, Idle .proceed (ask ctx)) → (∀ ctx outcome, Idle () (tell ctx outcome)) →
    Passes (.single ask tell)
  | composite {hooks : List (Hook (ε × ρ))} : (∀ h ∈ hooks, Passes h) → Passes (.composite hooks)

/-- A hook that does nothing lets everything pass. -/
theorem passes_plain : (plain : Hook (ε × ρ)).Passes :=
  .single (fun _ => Idle.idle_pure _) fun _ _ => Idle.idle_pure _

/-- Logging does not stop a statement. -/
theorem passes_log [LogSink ρ] (settings : LogHook) : (settings.hook : Hook (ε × ρ)).Passes :=
  .single (fun _ => (Idle.idle_log _).bind (Idle.idle_pure _)) fun _ _ => Idle.idle_log _

/-- A chain of hooks that let a statement pass leaves its context as it is. -/
theorem idle_chain {hooks : List (Hook (ε × ρ))} {ctx : QueryContext}
    (h : ∀ hook ∈ hooks, Idle .proceed (hook.before ctx)) : Idle (.ok ctx) (chain hooks ctx) := by
  induction hooks with
  | nil => exact Idle.idle_pure _
  | cons hook rest ih =>
    have hrest := ih fun other hother => h other (List.mem_cons_of_mem _ hother)
    exact (h hook List.mem_cons_self).bind hrest

/-- A hook that lets everything pass answers that the statement may proceed. -/
theorem Passes.idle_before {h : Hook (ε × ρ)} (hpasses : h.Passes) (ctx : QueryContext) :
    Idle .proceed (h.before ctx) := by
  induction hpasses with
  | single hask _ => exact hask ctx
  | composite _ ih =>
    -- the context comes out as it went in, so the composite answers as its hooks did
    have hbetween : Verdict.between ctx ctx = .proceed := if_pos ⟨rfl, rfl⟩
    refine (idle_chain ih).bind ?_
    rw [← hbetween]
    exact Idle.idle_pure _

/-- Telling hooks one after another does not touch the engine if telling each of them does not. -/
theorem idle_tellAll {hooks : List (Hook (ε × ρ))} {ctx : QueryContext}
    {outcome : SqlAssembly.Outcome} (h : ∀ hook ∈ hooks, Idle () (hook.after ctx outcome)) :
    Idle () (tellAll hooks ctx outcome) := by
  induction hooks with
  | nil => exact Idle.idle_pure _
  | cons hook rest ih =>
    have hrest := ih fun other hother => h other (List.mem_cons_of_mem _ hother)
    exact (h hook List.mem_cons_self).bind hrest

/-- Telling a hook that lets everything pass does not touch the engine. -/
theorem Passes.idle_after {h : Hook (ε × ρ)} (hpasses : h.Passes) (ctx : QueryContext)
    (outcome : SqlAssembly.Outcome) : Idle () (h.after ctx outcome) := by
  induction hpasses with
  | single _ htell => exact htell ctx outcome
  | composite _ ih => exact idle_tellAll ih

end Hook

/-! ### Engines with hooks -/

namespace HookedEngine

/-- An engine with no hook, or with one that lets everything pass. -/
def Passes (e : HookedEngine (ε × ρ) π) : Prop := ∀ h ∈ e.hook, h.Passes

variable {e : HookedEngine (ε × ρ) π}

/-- An engine whose hook lets everything pass goes on with the same context. -/
theorem Passes.idle_ask (hpasses : e.Passes) (ctx : QueryContext) :
    Idle (.ok ctx) (e.ask ctx) := by
  unfold ask
  cases hhook : e.hook with
  | none => exact Idle.idle_pure _
  | some h => exact ((hpasses h hhook).idle_before ctx).bind (Idle.idle_pure _)

/-- Telling its hook does not touch the engine inside. -/
theorem Passes.idle_tell (hpasses : e.Passes) (ctx : QueryContext) (outcome : Outcome) :
    Idle () (e.tell ctx outcome) := by
  unfold tell
  cases hhook : e.hook with
  | none => exact Idle.idle_pure _
  | some h => exact (hpasses h hhook).idle_after ctx outcome

/-- With hooks that let everything pass, a text that is prepared and executed at once is prepared
and executed as without them: first nothing is prepared, then the hooks let the text pass as it is,
and only then it is prepared. -/
theorem Passes.projects_perform {inner : Engine ε π} (hpasses : e.Passes)
    (hinner : e.inner = inner.beside ρ) (c : Call) (sql : String) (params : Params) :
    Projects Prod.fst id (e.engine.perform c sql params) (inner.perform c sql params) := by
  have hexecute : Projects Prod.fst Prod.fst (e.execute c { sql } params)
      (inner.perform c sql params) := by
    refine (hpasses.idle_ask (e.context sql params)).projects_bind ?_
    -- no statement is at hand yet, so the text is prepared
    have hobtain : e.obtain none sql = (inner.beside ρ).prepare sql := by rw [← hinner]; rfl
    show Projects _ _ (e.obtain none sql >>= _) _
    rw [hobtain]
    refine (inner.projects_beside_prepare sql).bind fun answer => ?_
    cases answer with
    | error err => exact (hpasses.idle_tell _ _).projects_bind fun _ => rfl
    | ok stmt =>
      dsimp only [id]
      rw [hinner]
      refine (inner.projects_beside_execute c stmt params).bind fun x => ?_
      exact (hpasses.idle_tell _ _).projects_bind fun _ => rfl
  intro s
  exact hexecute s

end HookedEngine

/-! ### Statements -/

namespace Statement

/-- Builds a statement and executes it, without a word to the log. -/
def perform (s : Statement) (e : Engine σ π) (c : Call) : StateM σ (Except Error c.Answer) :=
  match s.build with
  | .error err => pure (.error err)
  | .ok q => e.perform c q.sql q.params

/-- A statement is built, told to the log twice, and then prepared and executed. -/
theorem execute_eq [LogSink σ] (s : Statement) (e : Engine σ π) (c : Call) :
    s.execute e c = (match s.build with
      | .error err => pure (.error err)
      | .ok q => do
        log (s.builtEvent q)
        log (executingEvent q c)
        e.perform c q.sql q.params) := by
  unfold execute buildLogged
  cases s.build with
  | error err => rfl
  | ok q => rfl

/-- A statement that cannot be built does not get any further. -/
theorem execute_of_build_error [LogSink σ] {s : Statement} {err : Error}
    (h : s.build = .error err) (e : Engine σ π) (c : Call) :
    s.execute e c = pure (.error err) := by
  rw [execute_eq, h]

variable [LogSink ρ]

/-- A statement is executed as without surroundings if texts are prepared and executed so. -/
theorem projects_execute {e : Engine (ε × ρ) π} {inner : Engine ε π'} {c : Call}
    (h : ∀ sql params, Projects Prod.fst id (e.perform c sql params) (inner.perform c sql params))
    (s : Statement) : Projects Prod.fst id (s.execute e c) (s.perform inner c) := by
  rw [execute_eq, perform]
  cases s.build with
  | error err => exact fun _ => rfl
  | ok q =>
    -- the log is a part of the surroundings
    refine (Idle.idle_log (s.builtEvent q)).projects_bind ?_
    exact (Idle.idle_log (executingEvent q c)).projects_bind (h q.sql q.params)

/-- A statement is executed among the surroundings as it is alone. -/
theorem projects_execute_beside (inner : Engine ε π) (s : Statement) (c : Call) :
    Projects Prod.fst id (s.execute (inner.beside ρ) c) (s.perform inner c) :=
  projects_execute (fun sql params => inner.projects_beside_perform c sql params) s

/-- A statement is executed with hooks that let everything pass as it is without. -/
theorem projects_execute_hooked {e : HookedEngine (ε × ρ) π} {inner : Engine ε π}
    (hinner : e.inner = inner.beside ρ) (hpasses : e.Passes) (s : Statement) (c : Call) :
    Projects Prod.fst id (s.execute e.engine c) (s.perform inner c) :=
  projects_execute (fun sql params => hpasses.projects_perform hinner c sql params) s

/-- Hooks that let everything pass, logging ones among them, make no difference: a statement has the
answer that it has on the engine alone, and it leaves the engine as it does there.  The engine is
called for the same: it prepares the text of the statement and executes it with the parameters, if
there is something to execute.  A statement that cannot be built reaches neither any hooks nor the
engine. -/
theorem execute_transparent (inner : Engine ε π) (s : Statement) (c : Call) :
    (∀ settings : LogHook, (settings.hook : Hook (ε × ρ)).Passes) ∧
    (∀ e : HookedEngine (ε × ρ) π, e.inner = inner.beside ρ → e.Passes → ∀ st r,
      (s.execute e.engine c (st, r)).1 = (s.execute (inner.beside ρ) c (st, r)).1 ∧
      (s.execute e.engine c (st, r)).2.1 = (s.execute (inner.beside ρ) c (st, r)).2.1) ∧
    (∀ q, s.build = .ok q → ∀ e : HookedEngine (Traced ε × ρ) (Labelled π),
      e.inner = inner.traced.beside ρ → e.Passes → ∀ t r, ∃ calls,
        Engine.Calls c q.sql q.params (s.execute e.engine c (t, r)).1 calls ∧
        (s.execute e.engine c (t, r)).2.1.journal = t.journal ++ calls ∧
        (s.execute (inner.traced.beside ρ) c (t, r)).2.1.journal = t.journal ++ calls) ∧
    ∀ err, s.build = .error err →
      s.execute (inner.beside ρ) c = pure (.error err) ∧
      ∀ e : HookedEngine (ε × ρ) π, s.execute e.engine c = pure (.error err) := by
  refine ⟨Hook.passes_log, ?_, ?_, ?_⟩
  · intro e hinner hpasses st r
    -- both are what happens on the engine alone, so they are the same
    have hhooked := projects_execute_hooked hinner hpasses s c (st, r)
    have hbare := projects_execute_beside inner s c (st, r)
    exact Prod.mk.inj (hhooked.symm.trans hbare)
  · intro q hq e hinner hpasses t r
    obtain ⟨calls, hjournal, hcalls⟩ := inner.calls_perform c q.sql q.params t
    have hperform : s.perform inner.traced c = inner.traced.perform c q.sql q.params := by
      rw [perform, hq]
    have hhooked := projects_execute_hooked hinner hpasses s c (t, r)
    have hbare := projects_execute_beside inner.traced s c (t, r)
    rw [hperform] at hhooked hbare
    rw [hhooked] at hjournal hcalls
    refine ⟨calls, hcalls, hjournal, ?_⟩
    rw [← hjournal]
    exact congrArg (fun x => x.2.journal) (hbare.symm.trans hhooked)
  · intro err herr
    exact ⟨execute_of_build_error herr _ c, fun e => execute_of_build_error herr _ c⟩

/-- An engine that is busy at first, with a logging hook and, in a composite, one that counts what it
is told: the statement cannot be prepared, and the hooks do not change that. -/
theorem execute_transparent_busy :
    let _sink : LogSink (Nat × List LogEvent) := ⟨fun event r => (r.1, r.2 ++ [event])⟩
    let inner : Engine Nat Unit := {
      prepare := fun _ n => (if n = 0 then .error (.execution "busy") else .ok (), n + 1)
      execute := fun
        | .get, p, _ => pure (.ok none, p)
        | .all, p, _ => pure (.ok [], p)
        | .run, p, _ => pure (.ok {}, p) }
    let counting : Hook (Traced Nat × Nat × List LogEvent) := .single (fun _ => pure .proceed)
      fun _ _ => modify fun s => (s.1, s.2.1 + 1, s.2.2)
    let e : HookedEngine (Traced Nat × Nat × List LogEvent) (Labelled Unit) := {
      inner := inner.traced.beside _
      hook := some (.composite [LogHook.hook {}, .composite [.plain, counting]]) }
    let s : Statement := .delete (Delete.fromTable "t")
    let start : Traced Nat × Nat × List LogEvent := (⟨0, []⟩, 0, [])
    e.Passes ∧ s.build = .ok ⟨"DELETE FROM \"t\"", {}⟩ ∧
    failureOf (s.execute e.engine .run start).1 = some (.execution "busy") ∧
    (s.execute e.engine .run start).2.2.1 = 1 ∧
    ∃ calls, Engine.Calls .run "DELETE FROM \"t\"" {} (s.execute e.engine .run start).1 calls ∧
      (s.execute e.engine .run start).2.1.journal = calls ∧
      (s.execute (inner.traced.beside _) .run start).2.1.journal = calls := by
  intro _sink inner counting e s start
  have hcounting : counting.Passes := .single (fun _ _ => ⟨rfl, rfl⟩) fun _ _ _ => ⟨rfl, rfl⟩
  have hcomposite : (Hook.composite [.plain, counting]).Passes :=
    .composite (List.forall_mem_cons.mpr
      ⟨Hook.passes_plain, List.forall_mem_singleton.mpr hcounting⟩)
  have hpasses : e.Passes := by
    rintro h ⟨⟩
    exact .composite (List.forall_mem_cons.mpr
      ⟨Hook.passes_log _, List.forall_mem_singleton.mpr hcomposite⟩)
  have hbuild : s.build = .ok ⟨"DELETE FROM \"t\"", {}⟩ := rfl
  obtain ⟨-, -, hcalls, -⟩ := execute_transparent (ρ := Nat × List LogEvent) inner s .run
  exact ⟨hpasses, hbuild, by decide +kernel, by decide +kernel,
    hcalls _ hbuild e rfl hpasses ⟨0, []⟩ (0, [])⟩

end Statement

end SqlAssembly

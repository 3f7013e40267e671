import SqlAssembly.Engine.Basic
import SqlAssembly.Hook.Basic
import SqlAssembly.Proofs.Hook.Context

namespace SqlAssembly

/-!
# Hooks that keep a journal

Hooks work over any surrounding state, so that state may also hold a journal.  A hook can be made to
write into it whenever it is asked or told something, and apart from the journal it still does what
it did.

* `Projects` — the same computation on a part of the state;
* `Traced.Event`, `Traced` — the entries of a journal, and a state with a journal;
* `Traced.Erases` — the same computation without the journal;
* `Hook.traced` — a hook whose single hooks write into the journal, numbered from left to right;
* `Asked`, `tellings` — what asking hooks and telling them leaves in the journal;
* `Hook.asked_before`, `Hook.journal_after` — this is what it leaves.
-/

/-! ### Journals -/

/-- An entry of a journal. -/
inductive Traced.Event where
  | asked (hook : Nat) (ctx : QueryContext) (verdict : Verdict)
  | told (hook : Nat) (ctx : QueryContext) (outcome : Outcome)
  /-- The engine was given a text to prepare; it may have failed. -/
  | prepared (sql : String) (failure : Option Error)
  /-- The engine executed the statement that it had prepared from a text. -/
  | executed (sql : String) (c : Call) (params : Params) (result : Except Error c.Answer)

/-- A state with a journal. -/
structure Traced (σ : Type) where
  state : σ
  journal : List Traced.Event := []

/-- A step and what comes behind it. -/
theorem bind_of_eq {σ α β : Type} {x : StateM σ α} {k : α → StateM σ β} {a : α} {s s' : σ}
    (h : x s = (a, s')) : (x >>= k) s = k a s' := by
  show k (x s).1 (x s).2 = _
  rw [h]

/-- Seen through `view` the first computation does what the second one does, and `f` makes the
result of the second one of its own. -/
def Projects {σ τ α β : Type} (view : σ → τ) (f : α → β) (x : StateM σ α) (y : StateM τ β) : Prop :=
  ∀ s, y (view s) = (f (x s).1, view (x s).2)

/-- Computations that correspond, followed by ones that do, correspond. -/
theorem Projects.bind {σ τ α β γ δ : Type} {view : σ → τ} {f : α → β} {g : γ → δ} {x : StateM σ α}
    {y : StateM τ β} {k : α → StateM σ γ} {l : β → StateM τ δ} (h : Projects view f x y)
    (hk : ∀ a, Projects view g (k a) (l (f a))) : Projects view g (x >>= k) (y >>= l) := by
  intro s
  show (l (y (view s)).1) (y (view s)).2 = _
  rw [h s]
  exact hk (x s).1 (x s).2

namespace Traced

variable {σ α β γ δ : Type}

/-- A step of the state that is noted in the journal. -/
def noting (x : StateM σ α) (e : α → Event) : StateM (Traced σ) α := fun t =>
  let (a, s) := x t.state
  (a, ⟨s, t.journal ++ [e a]⟩)

/-- A step that is noted leaves its result and its state, and one entry more. -/
theorem noting_of_eq {x : StateM σ α} {e : α → Event} {t : Traced σ} {a : α} {s : σ}
    (h : x t.state = (a, s)) : noting x e t = (a, ⟨s, t.journal ++ [e a]⟩) := by
  show ((x t.state).1, (⟨(x t.state).2, t.journal ++ [e (x t.state).1]⟩ : Traced σ)) = _
  rw [h]

/-- Apart from the journal the first computation does what the second one does, and `f` makes the
result of the second one of its own. -/
def Erases (f : α → β) (x : StateM (Traced σ) α) (y : StateM σ β) : Prop :=
  ∀ t, y t.state = (f (x t).1, (x t).2.state)

theorem erases_pure (f : α → β) (a : α) : Erases (σ := σ) f (pure a) (pure (f a)) :=
  fun _ => rfl

/-- A step that is noted is that step, apart from the journal. -/
theorem erases_noting (x : StateM σ α) (e : α → Event) : Erases id (noting x e) x :=
  fun _ => rfl

/-- Journals may be erased step by step. -/
theorem Erases.bind {f : α → β} {g : γ → δ} {x : StateM (Traced σ) α} {y : StateM σ β}
    {k : α → StateM (Traced σ) γ} {l : β → StateM σ δ} (h : Erases f x y)
    (hk : ∀ a, Erases g (k a) (l (f a))) : Erases g (x >>= k) (y >>= l) :=
  Projects.bind h hk

end Traced

/-! ### Traced hooks -/

namespace Hook

variable {σ : Type}

open Traced (noting)

mutual

/-- The number of single hooks in a hook. -/
def count : Hook σ → Nat
  | .single _ _ => 1
  | .composite hooks => countAll hooks

/-- The number of single hooks in hooks. -/
def countAll : List (Hook σ) → Nat
  | [] => 0
  | h :: rest => h.count + countAll rest

end

mutual

/-- The hook whose single hooks write into the journal under numbers from `n` on. -/
def traced (n : Nat) : Hook σ → Hook (Traced σ)
  | .single ask tell =>
    .single (fun ctx => noting (ask ctx) fun verdict => .asked n ctx verdict)
      (fun ctx outcome => noting (tell ctx outcome) fun _ => .told n ctx outcome)
  | .composite hooks => .composite (tracedAll n hooks)

/-- The hooks whose single hooks write into the journal under numbers from `n` on. -/
def tracedAll (n : Nat) : List (Hook σ) → List (Hook (Traced σ))
  | [] => []
  | h :: rest => h.traced n :: tracedAll (n + h.count) rest

end

open Traced (Erases erases_pure erases_noting)

mutual

/-- Apart from the journal, a hook that keeps one answers as it did. -/
theorem erases_before : ∀ (h : Hook σ) (n : Nat) (ctx : QueryContext),
    Erases id ((h.traced n).before ctx) (h.before ctx)
  | .single ask _, _, ctx => erases_noting (ask ctx) _
  | .composite hooks, n, ctx => by
    unfold traced before
    refine (erases_chain hooks n ctx).bind fun answer => ?_
    cases answer <;> exact erases_pure id _

/-- The same for a chain of hooks. -/
theorem erases_chain : ∀ (hooks : List (Hook σ)) (n : Nat) (ctx : QueryContext),
    Erases id (chain (tracedAll n hooks) ctx) (chain hooks ctx)
  | [], _, ctx => erases_pure id _
  | h :: rest, n, ctx => by
    unfold tracedAll chain
    -- both chains get the same verdict, so they go on in the same way
    refine (erases_before h n ctx).bind fun verdict => ?_
    dsimp only [id]
    cases ctx.follow verdict with
    | ok next => exact erases_chain rest (n + h.count) next
    | error reason => exact erases_pure id _

end

mutual

/-- Apart from the journal, telling it something does what it did. -/
theorem erases_after : ∀ (h : Hook σ) (n : Nat) (ctx : QueryContext) (outcome : Outcome),
    Erases id ((h.traced n).after ctx outcome) (h.after ctx outcome)
  | .single _ tell, _, ctx, outcome => erases_noting (tell ctx outcome) _
  | .composite hooks, n, ctx, outcome => erases_tellAll hooks n ctx outcome

/-- The same for hooks that are told one after another. -/
theorem erases_tellAll : ∀ (hooks : List (Hook σ)) (n : Nat) (ctx : QueryContext)
    (outcome : Outcome),
    Erases id (tellAll (tracedAll n hooks) ctx outcome) (tellAll hooks ctx outcome)
  | [], _, _, _ => erases_pure id ()
  | h :: rest, n, ctx, outcome =>
    (erases_after h n ctx outcome).bind fun _ => erases_tellAll rest (n + h.count) ctx outcome

end

end Hook

/-! ### Asking -/

/-- The hooks numbered from `n` on and below `last` are asked in order, each about the context that
the one before it left, until one refuses; and the answer is the context that the last one left, or
the reason to refuse. -/
inductive Asked (last : Nat) :
    Nat → QueryContext → List Traced.Event → Except String QueryContext → Prop
  | done {ctx : QueryContext} : Asked last last ctx [] (.ok ctx)
  | passed {n : Nat} {ctx next : QueryContext} {v : Verdict} {events : List Traced.Event}
    {answer : Except String QueryContext} : n < last → ctx.follow v = .ok next →
    Asked last (n + 1) next events answer → Asked last n ctx (.asked n ctx v :: events) answer
  | refused {n : Nat} {ctx : QueryContext} {reason : String} : n < last →
    Asked last n ctx [.asked n ctx (.abort reason)] (.error reason)

namespace Asked

variable {n m last : Nat} {ctx next : QueryContext} {events events' : List Traced.Event}
  {answer : Except String QueryContext}

/-- Hooks are asked up to the last number and not beyond. -/
theorem le (h : Asked last n ctx events answer) : n ≤ last := by
  cases h with
  | done => exact Nat.le_refl _
  | passed hn _ _ | refused hn => exact Nat.le_of_lt hn

/-- What hooks leave of a context that they let pass. -/
theorem rewritten (h : Asked last n ctx events (.ok next)) (hctx : ctx.Consistent) :
    ctx.Rewritten next := by
  generalize hanswer : Except.ok next = answer at h
  induction h with
  | done =>
    obtain rfl := Except.ok.inj hanswer
    exact hctx.rewritten
  | passed hn hv hrest ih =>
    -- what a hook leaves is consistent again, so the hooks behind it may be asked
    have hnext := QueryContext.rewritten_of_follow hctx hv
    exact hnext.trans (ih hnext.consistent hanswer)
  | refused => cases hanswer

/-- Hooks that let the statement pass are followed by more hooks. -/
theorem append (h : Asked m n ctx events (.ok next)) (h' : Asked last m next events' answer) :
    Asked last n ctx (events ++ events') answer := by
  generalize hanswer : Except.ok next = passed at h
  induction h with
  | done =>
    obtain rfl := Except.ok.inj hanswer
    exact h'
  | passed hn hv hrest ih => exact .passed (Nat.lt_of_lt_of_le hn h'.le) hv (ih hanswer)
  | refused => cases hanswer

/-- Hooks that come after a veto are not asked. -/
theorem mono {reason : String} (h : Asked m n ctx events (.error reason)) (hm : m ≤ last) :
    Asked last n ctx events (.error reason) := by
  generalize hanswer : Except.error reason = refused at h
  induction h with
  | done => cases hanswer
  | passed hn hv hrest ih => exact .passed (Nat.lt_of_lt_of_le hn hm) hv (ih hanswer)
  | refused hn => exact .refused (Nat.lt_of_lt_of_le hn hm)

end Asked

namespace Hook

variable {σ : Type}

/-- A composite answers with the verdict between the context it was asked about and the last one. -/
theorem before_composite (hooks : List (Hook σ)) (ctx : QueryContext) (s : σ) :
    (composite hooks).before ctx s =
      (match (chain hooks ctx s).1 with
        | .ok last => .between ctx last
        | .error reason => .abort reason, (chain hooks ctx s).2) := by
  unfold before
  show (match (chain hooks ctx s).1 with | .ok _ => _ | .error _ => _ : StateM σ Verdict) _ = _
  cases (chain hooks ctx s).1 <;> rfl

/-- A chain goes on from where the verdict of its first hook leads, or ends with its refusal. -/
theorem chain_cons (h : Hook σ) (rest : List (Hook σ)) (ctx : QueryContext) (s : σ) :
    chain (h :: rest) ctx s =
      match ctx.follow (h.before ctx s).1 with
      | .ok next => chain rest next (h.before ctx s).2
      | .error reason => (.error reason, (h.before ctx s).2) := by
  rw [chain]
  show (match ctx.follow (h.before ctx s).1 with
    | .ok _ => _ | .error _ => _ : StateM σ (Except String QueryContext)) _ = _
  cases ctx.follow (h.before ctx s).1 <;> rfl

mutual

/-- The single hooks of a hook are asked in order. -/
theorem asked_before : ∀ (h : Hook σ) (n : Nat) {ctx : QueryContext} (t : Traced σ),
    ctx.Consistent → ∃ events,
      ((h.traced n).before ctx t).2.journal = t.journal ++ events ∧
      Asked (n + h.count) n ctx events (ctx.follow ((h.traced n).before ctx t).1)
  | .single ask _, n, ctx, t, hctx => by
    -- a single hook leaves one entry, with its verdict
    show ∃ events, t.journal ++ [.asked n ctx (ask ctx t.state).1] = _ ∧
      Asked (n + 1) n ctx events (ctx.follow (ask ctx t.state).1)
    refine ⟨_, rfl, ?_⟩
    cases hv : ctx.follow (ask ctx t.state).1 with
    | ok next => exact .passed n.lt_succ_self hv .done
    | error reason =>
      rw [QueryContext.eq_abort_of_follow hv]
      exact .refused n.lt_succ_self
  | .composite hooks, n, ctx, t, hctx => by
    obtain ⟨events, hjournal, hasked⟩ := asked_chain hooks n t hctx
    rw [traced, before_composite]
    refine ⟨events, hjournal, ?_⟩
    cases hanswer : (chain (tracedAll n hooks) ctx t).1 with
    | ok last =>
      -- the verdict of a composite leads at once to where its hooks led one by one
      rw [hanswer] at hasked
      show Asked _ _ _ _ (ctx.follow (Verdict.between ctx last))
      rw [QueryContext.follow_between hctx (hasked.rewritten hctx)]
      exact hasked
    | error reason =>
      rw [hanswer] at hasked
      exact hasked

/-- The single hooks of hooks are asked in order. -/
theorem asked_chain : ∀ (hooks : List (Hook σ)) (n : Nat) {ctx : QueryContext} (t : Traced σ),
    ctx.Consistent → ∃ events,
      (chain (tracedAll n hooks) ctx t).2.journal = t.journal ++ events ∧
      Asked (n + countAll hooks) n ctx events (chain (tracedAll n hooks) ctx t).1
  | [], n, ctx, t, hctx => ⟨[], (List.append_nil _).symm, .done⟩
  | h :: rest, n, ctx, t, hctx => by
    obtain ⟨events, hjournal, hasked⟩ := asked_before h n t hctx
    rw [tracedAll, chain_cons, countAll, ← Nat.add_assoc]
    cases hanswer : ctx.follow ((h.traced n).before ctx t).1 with
    | ok next =>
      rw [hanswer] at hasked
      -- the rest is asked about a context that the first hook may have rewritten
      have hnext := (hasked.rewritten hctx).consistent
      obtain ⟨behind, hbehind, hrest⟩ :=
        asked_chain rest (n + h.count) ((h.traced n).before ctx t).2 hnext
      refine ⟨events ++ behind, ?_, hasked.append hrest⟩
      rw [← List.append_assoc, ← hjournal]
      exact hbehind
    | error reason =>
      -- the rest is not asked, so it leaves nothing
      rw [hanswer] at hasked
      exact ⟨events, hjournal, hasked.mono (Nat.le_add_right _ _)⟩

end

end Hook

/-! ### Telling -/

/-- The hooks numbered from `n` on are told how a statement ended, in order. -/
def tellings (n count : Nat) (ctx : QueryContext) (outcome : Outcome) : List Traced.Event :=
  (List.range' n count).map fun hook => .told hook ctx outcome

/-- Hooks in two groups are told group by group. -/
theorem tellings_add (n count count' : Nat) (ctx : QueryContext) (outcome : Outcome) :
    tellings n (count + count') ctx outcome
      = tellings n count ctx outcome ++ tellings (n + count) count' ctx outcome := by
  rw [tellings, tellings, tellings, ← List.map_append, List.range'_append_1]

namespace Hook

variable {σ : Type}

mutual

/-- The single hooks of a hook are told in order. -/
theorem journal_after : ∀ (h : Hook σ) (n : Nat) (ctx : QueryContext) (outcome : Outcome)
    (t : Traced σ),
    ((h.traced n).after ctx outcome t).2.journal = t.journal ++ tellings n h.count ctx outcome
  | .single _ _, _, _, _, _ => rfl
  | .composite hooks, n, ctx, outcome, t => journal_tellAll hooks n ctx outcome t

/-- The single hooks of hooks are told in order. -/
theorem journal_tellAll : ∀ (hooks : List (Hook σ)) (n : Nat) (ctx : QueryContext)
    (outcome : Outcome) (t : Traced σ),
    (tellAll (tracedAll n hooks) ctx outcome t).2.journal
      = t.journal ++ tellings n (countAll hooks) ctx outcome
  | [], _, _, _, _ => (List.append_nil _).symm
  | h :: rest, n, ctx, outcome, t => by
    have hrest :=
      journal_tellAll rest (n + h.count) ctx outcome ((h.traced n).after ctx outcome t).2
    rw [journal_after, List.append_assoc, ← tellings_add] at hrest
    exact hrest

end

end Hook

end SqlAssembly

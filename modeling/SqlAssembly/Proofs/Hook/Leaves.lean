import SqlAssembly.Proofs.Hook.Traced

namespace SqlAssembly

/-!
# The single hooks of a hook

A composite answers with one verdict for all its hooks: the verdict that leads from the texts it was
asked about to the texts its hooks left.  Whoever follows that verdict is where the single hooks led
one by one, however the composites are nested.

* `Hook.Leaf`, `Hook.leaves` — single hooks, and those of a hook from left to right;
* `Leaf.askAll`, `Leaf.tellAll` — asking and telling single hooks one after another;
* `Hook.follow_before` — following the verdict of a hook is asking its single hooks;
* `Hook.leaves_traced` — the single hooks of a hook that keeps a journal;
* `QueryContext.SameRequest`, `Asked.rewritten_of_mem` — what hooks are asked about differs in the
  texts at most.
-/

namespace Hook

/-- A single hook. -/
structure Leaf (σ : Type) where
  ask : QueryContext → StateM σ Verdict
  tell : QueryContext → Outcome → StateM σ Unit

variable {σ : Type}

mutual

/-- The single hooks of a hook, from left to right. -/
def leaves : Hook σ → List (Leaf σ)
  | .single ask tell => [⟨ask, tell⟩]
  | .composite hooks => leavesAll hooks

/-- The single hooks of hooks, from left to right. -/
def leavesAll : List (Hook σ) → List (Leaf σ)
  | [] => []
  | h :: rest => h.leaves ++ leavesAll rest

end

/-! ### One after another -/

namespace Leaf

/-- Asks single hooks one after another, each about the context as the ones before it left it.  A
new text for the engine always takes effect, a new canonical text if there is one, and the verb is
that of the canonical text from then on.  The first refusal ends it. -/
def askAll : List (Leaf σ) → QueryContext → StateM σ (Except String QueryContext)
  | [], ctx => return .ok ctx
  | l :: rest, ctx => do
    match ← l.ask ctx with
    | .proceed => askAll rest ctx
    | .substitute exec none =>
      askAll rest { ctx with execSql := exec, verb := Verb.ofSql ctx.canonicalSql }
    | .substitute exec (some canonical) =>
      askAll rest
        { ctx with execSql := exec, canonicalSql := canonical, verb := Verb.ofSql canonical }
    | .abort reason => return .error reason

/-- Tells single hooks one after another how a statement ended. -/
def tellAll : List (Leaf σ) → QueryContext → Outcome → StateM σ Unit
  | [], _, _ => return ()
  | l :: rest, ctx, outcome => do
    l.tell ctx outcome
    tellAll rest ctx outcome

/-- The single hooks that write into the journal under numbers from `n` on. -/
def recorded (n : Nat) : List (Leaf σ) → List (Leaf (Traced σ))
  | [] => []
  | l :: rest =>
    { ask := fun ctx => Traced.noting (l.ask ctx) fun verdict => .asked n ctx verdict
      tell := fun ctx outcome =>
        Traced.noting (l.tell ctx outcome) fun _ => .told n ctx outcome } ::
      recorded (n + 1) rest

/-- The rest is asked about the context that the verdict of the first leads to, unless that
refuses. -/
theorem askAll_cons (l : Leaf σ) (rest : List (Leaf σ)) (ctx : QueryContext) (s : σ) :
    askAll (l :: rest) ctx s =
      match ctx.follow (l.ask ctx s).1 with
      | .ok next => askAll rest next (l.ask ctx s).2
      | .error reason => (.error reason, (l.ask ctx s).2) := by
  rcases hask : l.ask ctx s with ⟨v, s'⟩
  rw [askAll, bind_of_eq hask]
  cases v with
  | substitute exec canonical => cases canonical <;> rfl
  | proceed | abort reason => rfl

/-- The hooks of a second list are asked about the context that the first list leaves. -/
theorem askAll_append (ls ls' : List (Leaf σ)) (ctx : QueryContext) (s : σ) :
    askAll (ls ++ ls') ctx s =
      match (askAll ls ctx s).1 with
      | .ok next => askAll ls' next (askAll ls ctx s).2
      | .error reason => (.error reason, (askAll ls ctx s).2) := by
  induction ls generalizing ctx s with
  | nil => rfl
  | cons l rest ih =>
    rw [List.cons_append, askAll_cons, askAll_cons]
    cases ctx.follow (l.ask ctx s).1 with
    | ok next => exact ih next (l.ask ctx s).2
    | error reason => rfl

/-- The hooks of a second list are told after those of the first. -/
theorem tellAll_append (ls ls' : List (Leaf σ)) (ctx : QueryContext) (outcome : Outcome) (s : σ) :
    tellAll (ls ++ ls') ctx outcome s
      = tellAll ls' ctx outcome (tellAll ls ctx outcome s).2 := by
  induction ls generalizing s with
  | nil => rfl
  | cons l rest ih => exact ih (l.tell ctx outcome s).2

/-- Single hooks that let a statement pass have changed its texts at most. -/
theorem rewritten_of_askAll {ls : List (Leaf σ)} {ctx final : QueryContext} {s : σ}
    (hctx : ctx.Consistent) (h : (askAll ls ctx s).1 = .ok final) : ctx.Rewritten final := by
  induction ls generalizing ctx s with
  | nil =>
    obtain rfl := Except.ok.inj h
    exact hctx.rewritten
  | cons l rest ih =>
    rw [askAll_cons] at h
    cases hv : ctx.follow (l.ask ctx s).1 with
    | ok next =>
      rw [hv] at h
      have hnext := QueryContext.rewritten_of_follow hctx hv
      exact hnext.trans (ih hnext.consistent h)
    | error reason =>
      rw [hv] at h
      cases h

/-- The numbers of a second list go on behind those of the first. -/
theorem recorded_append (n : Nat) (ls ls' : List (Leaf σ)) :
    recorded n (ls ++ ls') = recorded n ls ++ recorded (n + ls.length) ls' := by
  induction ls generalizing n with
  | nil => rfl
  | cons l rest ih =>
    rw [List.cons_append, recorded, ih, List.length_cons, Nat.add_right_comm, Nat.add_assoc]
    rfl

end Leaf

/-! ### A hook and its single hooks -/

mutual

/-- Following the verdict of a hook is asking its single hooks one after another. -/
theorem follow_before : ∀ (h : Hook σ) {ctx : QueryContext} (s : σ), ctx.Consistent →
    (ctx.follow (h.before ctx s).1, (h.before ctx s).2) = Leaf.askAll h.leaves ctx s
  | .single ask tell, ctx, s, _ => by
    rw [leaves, Leaf.askAll_cons]
    show (ctx.follow (ask ctx s).1, (ask ctx s).2) = _
    cases ctx.follow (ask ctx s).1 <;> rfl
  | .composite hooks, ctx, s, hctx => by
    -- what the hooks of a composite did is known from the other half of the induction
    have hchain := chain_eq_askAll hooks s hctx
    rw [leaves, before_composite, ← hchain]
    cases hanswer : (chain hooks ctx s).1 with
    | ok last =>
      -- the verdict between two contexts leads from one to the other, whatever the hooks did
      have hlast : (Leaf.askAll (leavesAll hooks) ctx s).1 = .ok last := by rw [← hchain, hanswer]
      refine Prod.ext ?_ rfl
      show ctx.follow (Verdict.between ctx last) = _
      rw [QueryContext.follow_between hctx (Leaf.rewritten_of_askAll hctx hlast), hanswer]
    | error reason => exact Prod.ext hanswer.symm rfl

/-- Asking hooks in order is asking their single hooks one after another. -/
theorem chain_eq_askAll : ∀ (hooks : List (Hook σ)) {ctx : QueryContext} (s : σ),
    ctx.Consistent → chain hooks ctx s = Leaf.askAll (leavesAll hooks) ctx s
  | [], _, _, _ => rfl
  | h :: rest, ctx, s, hctx => by
    have hfirst := follow_before h s hctx
    rw [chain_cons, leavesAll, Leaf.askAll_append, ← hfirst]
    cases hanswer : ctx.follow (h.before ctx s).1 with
    | ok next =>
      have hnext := (QueryContext.rewritten_of_follow hctx hanswer).consistent
      exact chain_eq_askAll rest (h.before ctx s).2 hnext
    | error reason => rfl

end

mutual

/-- Telling a hook is telling its single hooks one after another. -/
theorem after_eq_tellAll : ∀ (h : Hook σ) (ctx : QueryContext) (outcome : Outcome) (s : σ),
    h.after ctx outcome s = Leaf.tellAll h.leaves ctx outcome s
  | .single _ _, _, _, _ => rfl
  | .composite hooks, ctx, outcome, s => tellAll_eq_tellAll hooks ctx outcome s

/-- Telling hooks in order is telling their single hooks one after another. -/
theorem tellAll_eq_tellAll : ∀ (hooks : List (Hook σ)) (ctx : QueryContext) (outcome : Outcome)
    (s : σ), tellAll hooks ctx outcome s = Leaf.tellAll (leavesAll hooks) ctx outcome s
  | [], _, _, _ => rfl
  | h :: rest, ctx, outcome, s => by
    rw [leavesAll, Leaf.tellAll_append, ← after_eq_tellAll h]
    exact tellAll_eq_tellAll rest ctx outcome (h.after ctx outcome s).2

end

mutual

/-- There are as many single hooks as are counted. -/
theorem length_leaves : ∀ h : Hook σ, h.leaves.length = h.count
  | .single _ _ => rfl
  | .composite hooks => length_leavesAll hooks

/-- The same for a list of hooks. -/
theorem length_leavesAll : ∀ hooks : List (Hook σ), (leavesAll hooks).length = countAll hooks
  | [] => rfl
  | h :: rest => by
    rw [leavesAll, countAll, List.length_append, length_leaves h, length_leavesAll rest]

end

mutual

/-- A hook that keeps a journal has the single hooks that write into it, numbered in order. -/
theorem leaves_traced : ∀ (h : Hook σ) (n : Nat), (h.traced n).leaves = Leaf.recorded n h.leaves
  | .single _ _, _ => rfl
  | .composite hooks, n => leavesAll_tracedAll hooks n

/-- The same for a list of hooks, with the numbers going on from one to the next. -/
theorem leavesAll_tracedAll : ∀ (hooks : List (Hook σ)) (n : Nat),
    leavesAll (tracedAll n hooks) = Leaf.recorded n (leavesAll hooks)
  | [], _ => rfl
  | h :: rest, n => by
    rw [tracedAll, leavesAll, leavesAll, Leaf.recorded_append, leaves_traced h,
      leavesAll_tracedAll rest, length_leaves]

end

end Hook

/-! ### What a hook is asked about -/

namespace QueryContext

/-- All but the texts and the verb is the same. -/
def SameRequest (ctx next : QueryContext) : Prop :=
  next.paramCount = ctx.paramCount ∧ next.tag = ctx.tag ∧ next.fields = ctx.fields

/-- Rewriting a context changes its texts and verb, and so keeps the request. -/
theorem Rewritten.sameRequest {ctx next : QueryContext} (h : ctx.Rewritten next) :
    ctx.SameRequest next := by
  obtain ⟨exec, canonical, rfl⟩ := h
  exact ⟨rfl, rfl, rfl⟩

end QueryContext

/-- Every hook is asked about the same statement, with other texts at most. -/
theorem Asked.rewritten_of_mem {last n hook : Nat} {ctx ctx' : QueryContext}
    {events : List Traced.Event} {answer : Except String QueryContext} {verdict : Verdict}
    (h : Asked last n ctx events answer) (hctx : ctx.Consistent)
    (hmem : .asked hook ctx' verdict ∈ events) : ctx.Rewritten ctx' := by
  induction h with
  | done => cases hmem
  | passed hn hv hrest ih =>
    obtain heq | hmem := List.mem_cons.mp hmem
    · obtain ⟨-, rfl, -⟩ := Traced.Event.asked.inj heq
      exact hctx.rewritten
    -- the later ones are asked about what the first verdict leads to
    · have hnext := QueryContext.rewritten_of_follow hctx hv
      exact hnext.trans (ih hnext.consistent hmem)
  | refused hn =>
    obtain ⟨-, rfl, -⟩ := Traced.Event.asked.inj (List.mem_singleton.mp hmem)
    exact hctx.rewritten

end SqlAssembly

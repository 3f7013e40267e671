import SqlAssembly.Proofs.Engine.Traced
import SqlAssembly.Proofs.Hook.Leaves

namespace SqlAssembly

/-!
# How hooks are grouped

An engine with hooks only depends on the single hooks it has and their order.  Hooks that are added
one after the other nest to the left, and this is no different from one flat list.

* `HookedEngine.leaves` — the single hooks of an engine;
* `HookedEngine.execute_eq_of_leaves` — engines with the same single hooks execute alike;
* `HookedEngine.addHook_eq_flat` — hooks that were added one after the other and a flat list;
* `HookedEngine.ask_one_by_one` — a hook of any shape is asked like its single hooks.
-/

namespace HookedEngine

open Hook (Leaf)

variable {σ π : Type}

/-! ### The single hooks of an engine -/

/-- The single hooks, in the order in which they are asked. -/
def leaves (e : HookedEngine σ π) : List (Leaf σ) := (e.hook.map Hook.leaves).getD []

/-- An engine with a hook has the single hooks of that hook. -/
theorem leaves_withHook (e : HookedEngine σ π) (h : Hook σ) : (e.withHook h).leaves = h.leaves :=
  rfl

/-- An added hook is asked behind those that are there. -/
theorem leaves_addHook (e : HookedEngine σ π) (h : Hook σ) :
    (e.addHook h).leaves = e.leaves ++ h.leaves := by
  cases hhook : e.hook with
  | none => simp [addHook, leaves, hhook]
  | some first => simp [addHook, leaves, hhook, Hook.leaves, Hook.leavesAll]

/-- Hooks that are added one after the other bring their single hooks in that order. -/
theorem leaves_foldl_addHook (hooks : List (Hook σ)) (e : HookedEngine σ π) :
    (hooks.foldl addHook e).leaves = e.leaves ++ Hook.leavesAll hooks := by
  induction hooks generalizing e with
  | nil => exact (List.append_nil _).symm
  | cons h rest ih => rw [List.foldl_cons, ih, leaves_addHook, Hook.leavesAll, List.append_assoc]

/-- The hook of an engine and more hooks behind it, in one flat list. -/
def flat (e : HookedEngine σ π) (hooks : List (Hook σ)) : HookedEngine σ π :=
  e.withHook (.composite (e.hook.toList ++ hooks))

/-- A flat list has the same single hooks in the same order. -/
theorem leaves_flat (e : HookedEngine σ π) (hooks : List (Hook σ)) :
    (e.flat hooks).leaves = e.leaves ++ Hook.leavesAll hooks := by
  cases hhook : e.hook with
  | none => simp [flat, withHook, leaves, hhook, Hook.leaves]
  | some first => simp [flat, withHook, leaves, hhook, Hook.leaves, Hook.leavesAll]

/-- The journal is kept by every single hook on its own. -/
theorem leaves_traced (e : HookedEngine σ π) : e.traced.leaves = Leaf.recorded 0 e.leaves := by
  unfold leaves traced
  cases e.hook with
  | none => rfl
  | some h => exact h.leaves_traced 0

/-- Hooks that are added one after the other are the single hooks of a flat list. -/
theorem leaves_foldl_eq_flat (e : HookedEngine σ π) (hooks : List (Hook σ)) :
    (hooks.foldl addHook e).leaves = (e.flat hooks).leaves := by
  rw [leaves_foldl_addHook, leaves_flat]

/-- The single hooks are the same with a journal. -/
theorem leaves_traced_foldl_eq_flat (e : HookedEngine σ π) (hooks : List (Hook σ)) :
    (hooks.foldl addHook e).traced.leaves = (e.flat hooks).traced.leaves := by
  rw [leaves_traced, leaves_traced, leaves_foldl_eq_flat]

/-- Adding hooks leaves the engine inside as it is. -/
theorem inner_foldl_addHook (hooks : List (Hook σ)) (e : HookedEngine σ π) :
    (hooks.foldl addHook e).inner = e.inner := by
  induction hooks generalizing e with
  | nil => rfl
  | cons h rest ih => exact ih (e.addHook h)

/-- Adding hooks leaves the tag as it is. -/
theorem tag_foldl_addHook (hooks : List (Hook σ)) (e : HookedEngine σ π) :
    (hooks.foldl addHook e).tag = e.tag := by
  induction hooks generalizing e with
  | nil => rfl
  | cons h rest ih => exact ih (e.addHook h)

/-! ### Only the single hooks matter -/

/-- An engine asks its single hooks one after another. -/
theorem ask_eq_askAll (e : HookedEngine σ π) {ctx : QueryContext} (hctx : ctx.Consistent) (s : σ) :
    e.ask ctx s = Leaf.askAll e.leaves ctx s := by
  unfold ask leaves
  cases e.hook with
  | none => rfl
  | some h => exact h.follow_before s hctx

/-- An engine tells its single hooks one after another. -/
theorem tell_eq_tellAll (e : HookedEngine σ π) (ctx : QueryContext) (outcome : Outcome) (s : σ) :
    e.tell ctx outcome s = Leaf.tellAll e.leaves ctx outcome s := by
  unfold tell leaves
  cases e.hook with
  | none => rfl
  | some h => exact h.after_eq_tellAll ctx outcome s

/-- What is asked depends on the single hooks only. -/
theorem ask_eq_of_leaves {e e' : HookedEngine σ π} (hleaves : e.leaves = e'.leaves)
    {ctx : QueryContext} (hctx : ctx.Consistent) : e.ask ctx = e'.ask ctx := by
  funext s
  rw [ask_eq_askAll e hctx, ask_eq_askAll e' hctx, hleaves]

/-- Engines around the same engine, with the same tag and the same single hooks, execute alike. -/
theorem execute_eq_of_leaves (e e' : HookedEngine σ π) (hinner : e.inner = e'.inner)
    (htag : e.tag = e'.tag) (hleaves : e.leaves = e'.leaves) : e.execute = e'.execute := by
  funext c stmt params
  -- the hooks are used for asking and telling only
  have hcontext : e.context stmt.sql params = e'.context stmt.sql params := by
    unfold context
    rw [htag]
  have hask : e.ask (e.context stmt.sql params) = e'.ask (e'.context stmt.sql params) := by
    rw [← hcontext]
    exact ask_eq_of_leaves hleaves rfl
  have hobtain : e.obtain = e'.obtain := by
    funext prepared sql
    unfold obtain
    rw [hinner]
  have htell : e.tell = e'.tell := by
    funext ctx outcome s
    rw [tell_eq_tellAll, tell_eq_tellAll, hleaves]
  unfold execute
  rw [hask, hobtain, htell, hinner]

/-- Hooks that are added one after the other are like one flat list of them: with and without a
journal, executions have the same results and the same effects. -/
theorem addHook_eq_flat (e : HookedEngine σ π) (hooks : List (Hook σ)) :
    (hooks.foldl addHook e).execute = (e.flat hooks).execute ∧
    (hooks.foldl addHook e).traced.execute = (e.flat hooks).traced.execute := by
  -- the two differ in how their hooks are nested, and in nothing else
  have hinner : (hooks.foldl addHook e).inner = (e.flat hooks).inner := inner_foldl_addHook hooks e
  have htag : (hooks.foldl addHook e).tag = (e.flat hooks).tag := tag_foldl_addHook hooks e
  exact ⟨execute_eq_of_leaves _ _ hinner htag (leaves_foldl_eq_flat e hooks),
    execute_eq_of_leaves (hooks.foldl addHook e).traced (e.flat hooks).traced
      (congrArg Engine.traced hinner) htag (leaves_traced_foldl_eq_flat e hooks)⟩

/-! ### Asking a hook of any shape -/

/-- A hook of any shape, asked about a statement whose verb is that of its canonical text: the
answer and the effects are those of its single hooks, asked one after another until one refuses, and
each of them is asked as often and about the same.  Parameters, tag and fields stay the same in all
that the hooks are asked about and in what they leave.  Hooks that are added one after the other are
like one flat list of them. -/
theorem ask_one_by_one (e : HookedEngine σ π) (h : Hook σ) {ctx : QueryContext}
    (hctx : ctx.Consistent) :
    (∀ s, (e.withHook h).ask ctx s = Leaf.askAll h.leaves ctx s) ∧
    (∀ t, (e.withHook h).traced.ask ctx t = Leaf.askAll (Leaf.recorded 0 h.leaves) ctx t) ∧
    (∀ t, ∃ events, ((e.withHook h).traced.ask ctx t).2.journal = t.journal ++ events ∧
      ∀ n asked verdict, .asked n asked verdict ∈ events → ctx.SameRequest asked) ∧
    (∀ s final, ((e.withHook h).ask ctx s).1 = .ok final → ctx.SameRequest final) ∧
    ∀ hooks : List (Hook σ),
      (hooks.foldl addHook e).ask ctx = (e.flat hooks).ask ctx ∧
      (hooks.foldl addHook e).traced.ask ctx = (e.flat hooks).traced.ask ctx ∧
      (hooks.foldl addHook e).execute = (e.flat hooks).execute ∧
      (hooks.foldl addHook e).traced.execute = (e.flat hooks).traced.execute := by
  refine ⟨fun s => ask_eq_askAll _ hctx s, fun t => ?_, fun t => ?_, fun s final hfinal => ?_,
    fun hooks => ?_⟩
  · rw [ask_eq_askAll _ hctx, leaves_traced, leaves_withHook]
  -- whatever the hooks substitute, parameters, tag and fields are not theirs to change
  · obtain ⟨events, hjournal, hasked⟩ := (e.withHook h).asked_ask hctx t
    exact ⟨events, hjournal, fun n asked verdict hmem =>
      (hasked.rewritten_of_mem hctx hmem).sameRequest⟩
  · rw [ask_eq_askAll _ hctx] at hfinal
    exact (Leaf.rewritten_of_askAll hctx hfinal).sameRequest
  · exact ⟨ask_eq_of_leaves (leaves_foldl_eq_flat e hooks) hctx,
      ask_eq_of_leaves (leaves_traced_foldl_eq_flat e hooks) hctx, addHook_eq_flat e hooks⟩

/-- Nested hooks that count how often they are asked; the last of them restores the text that the
first one replaced. -/
theorem ask_one_by_one_restored :
    let inner : Engine Nat Unit := {
      prepare := fun _ => pure (.ok ())
      execute := fun
        | .get, p, _ => pure (.ok none, p)
        | .all, p, _ => pure (.ok [], p)
        | .run, p, _ => pure (.ok {}, p) }
    let rename (text : String) : Hook Nat :=
      .single (fun _ s => (.substitute text (some text), s + 1)) fun _ _ => pure ()
    let watch : Hook Nat := .single
      (fun ctx s => (if ctx.verb = .delete then .proceed else .abort "no", s + 1))
      fun _ _ => pure ()
    let h : Hook Nat := .composite
      [.composite [rename "DELETE", watch], .composite [rename "SELECT"]]
    let e : HookedEngine Nat Unit := { inner }
    let ctx : QueryContext := { QueryContext.ofSql "SELECT" 1 with tag := some "x" }
    (h.before ctx 0).1 = .proceed ∧
    (e.withHook h).ask ctx 0 = Leaf.askAll h.leaves ctx 0 ∧
    Leaf.askAll h.leaves ctx 0 = (.ok ctx, 3) ∧
    ((((e.addHook (rename "DELETE")).addHook watch).addHook (rename "SELECT")).ask ctx 0
      = (e.flat [rename "DELETE", watch, rename "SELECT"]).ask ctx 0) := by
  intro inner rename watch h e ctx
  have hctx : ctx.Consistent := by
    show ctx.verb = _
    decide +kernel
  obtain ⟨hask, -, -, -, hflat⟩ := ask_one_by_one e h hctx
  have hsame := (hflat [rename "DELETE", watch, rename "SELECT"]).1
  exact ⟨by decide +kernel, hask 0, rfl, congrFun hsame 0⟩

end HookedEngine

end SqlAssembly

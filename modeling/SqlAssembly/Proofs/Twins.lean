import SqlAssembly.Proofs.Numbered

namespace SqlAssembly

/-!
# Renderings that go the same way

A rendering follows a plan if it does what the plan says on every allocator of a mode: it fails
with the error of the plan, or it gives the plan's text for the next number of the allocator.  Two
renderings that bind different values may follow the same plan.

* `Render.Follows` — a rendering follows a plan and binds given values;
* `Render.Twins` — two renderings follow the same plan;
* `Render.Twins.map`, `Render.Twins.seq` — what is made of twins has twins.
-/

namespace Render

variable {α β γ : Type} {mode : PatternMode} {vs ws : List Value}

/-! ### Plans -/

/-- On every allocator of the mode, the rendering fails with the error of the plan after the first
of the values, or binds all of them and gives what the plan has for the next number. -/
def Follows (mode : PatternMode) (vs : List Value) (r : Render α) : Except Error (Nat → α) → Prop
  | .ok x => ∀ a : Allocator, a.options.patterns = mode →
      r.outcome a = (.ok (x a.next), a.bindAll vs)
  | .error e => ∃ n ≤ vs.length, ∀ a : Allocator, a.options.patterns = mode →
      r.outcome a = (.error e, a.bindAll (vs.take n))

namespace Follows

variable {r : Render α} {t : Render β}

/-- Nothing happens behind an error. -/
theorem bind_error {e : Error} (h : Follows mode vs r (.error e)) (ws : List Value)
    (f : α → Render β) : Follows mode (vs ++ ws) (r >>= f) (.error e) := by
  obtain ⟨n, hn, hr⟩ := h
  refine ⟨n, by simp only [List.length_append]; omega, fun a ha => ?_⟩
  rw [Render.outcome_bind, hr a ha, List.take_append_of_le_length hn]

/-- A text made of what was rendered is that text of the plan. -/
theorem map {plan : Except Error (Nat → α)} (h : Follows mode vs r plan) (g : α → β) :
    Follows mode vs (do let u ← r; return g u) (plan.map fun x k => g (x k)) := by
  cases plan with
  | error e =>
    have herror := h.bind_error [] fun u => pure (g u)
    rw [List.append_nil] at herror
    exact herror
  | ok x =>
    intro a ha
    rw [Render.outcome_bind, h a ha]
    rfl

/-- The second of two renderings starts where the first one stopped. -/
theorem seq {x : Nat → α} {plan : Except Error (Nat → β)} (hr : Follows mode vs r (.ok x))
    (ht : Follows mode ws t plan) (g : α → β → γ) :
    Follows mode (vs ++ ws) (do let u ← r; let v ← t; return g u v)
      (plan.map fun y k => g (x k) (y (k + vs.length))) := by
  have hsecond : ∀ a : Allocator, a.options.patterns = mode →
      (a.bindAll vs).options.patterns = mode := by
    intro a ha
    rwa [Allocator.bindAll_options]
  cases plan with
  | error e =>
    -- the second one fails after some of its values, behind all those of the first one
    obtain ⟨n, hn, ht⟩ := ht
    refine ⟨vs.length + n, by simpa using hn, fun a ha => ?_⟩
    rw [Render.outcome_bind, hr a ha]
    dsimp only
    rw [Render.outcome_bind, ht _ (hsecond a ha), List.take_length_add_append,
      Allocator.bindAll_append]
  | ok y =>
    intro a ha
    rw [Render.outcome_bind, hr a ha]
    dsimp only
    rw [Render.outcome_bind, ht _ (hsecond a ha), Allocator.bindAll_next, Allocator.bindAll_append]
    rfl

end Follows

/-! ### Twins -/

/-- The renderings follow the same plan, one with the first and one with the second of each pair of
values.  What they give has one placeholder for each pair. -/
def Twins (mode : PatternMode) (IsNumbered : Multiset Nat → (Nat → α) → Prop)
    (pairs : List (Value × Value)) (r r' : Render α) : Prop :=
  ∃ plan, (∀ x, plan = .ok x → IsNumbered (Multiset.range pairs.length) x) ∧
    Follows mode (pairs.map (·.1)) r plan ∧ Follows mode (pairs.map (·.2)) r' plan

namespace Twins

variable {IsNumbered : Multiset Nat → (Nat → α) → Prop}
  {IsNumbered' : Multiset Nat → (Nat → β) → Prop} {IsNumbered'' : Multiset Nat → (Nat → γ) → Prop}
  {pairs pairs' : List (Value × Value)} {r r' : Render α} {t t' : Render β}

/-- An error is its own twin, whatever would have been bound. -/
theorem throw (e : Error) (pairs : List (Value × Value)) :
    Twins mode IsNumbered pairs (throw e) (throw e) :=
  ⟨.error e, nofun, ⟨0, Nat.zero_le _, fun _ _ => rfl⟩, 0, Nat.zero_le _, fun _ _ => rfl⟩

/-- A text without placeholders is its own twin. -/
theorem pure {u : α} (h : IsNumbered 0 fun _ => u) :
    Twins mode IsNumbered [] (pure u) (pure u) := by
  refine ⟨.ok fun _ => u, ?_, fun _ _ => rfl, fun _ _ => rfl⟩
  rintro x ⟨⟩
  exact h

/-- A check binds nothing. -/
theorem liftExcept (x : Except Error String) :
    Twins mode Numbered [] (liftExcept x) (liftExcept x) := by
  cases x with
  | error e => exact throw e []
  | ok text => exact pure (.text text)

/-- Binding one value is a twin of binding another one: both give the same placeholder. -/
theorem bindValue (v w : Value) : Twins mode Numbered [(v, w)] (Render.bind v) (Render.bind w) := by
  refine ⟨.ok fun k => Allocator.placeholder k, ?_, fun _ _ => rfl, fun _ _ => rfl⟩
  rintro x ⟨⟩
  -- the placeholder of the next number is at distance zero
  exact .slot 0

/-- Values one for one are bound to as many placeholders. -/
theorem bindAll (pairs : List (Value × Value)) :
    Twins mode (fun s xs => NumberedAll s xs ∧ ∀ k, (xs k).length = pairs.length) pairs
      (Render.bindAll (pairs.map (·.1))) (Render.bindAll (pairs.map (·.2))) := by
  refine ⟨.ok fun k => (List.range' k pairs.length).map Allocator.placeholder, ?_, ?_, ?_⟩
  · rintro x ⟨⟩
    exact ⟨.placeholders pairs.length, fun k => by simp⟩
  all_goals
    intro a _
    rw [Render.outcome_bindAll, List.length_map]
    rfl

/-- What is made of twins in one way are twins. -/
theorem map (h : Twins mode IsNumbered pairs r r') {g : α → β}
    (hg : ∀ {s x}, IsNumbered s x → IsNumbered' s fun k => g (x k)) :
    Twins mode IsNumbered' pairs (do let u ← r; return g u) (do let u ← r'; return g u) := by
  obtain ⟨plan, hplan, hr, hr'⟩ := h
  refine ⟨_, ?_, hr.map g, hr'.map g⟩
  intro y hy
  obtain ⟨x, hx, rfl⟩ := map_eq_ok.mp hy
  exact hg (hplan x hx)

/-- Two renderings one after the other, each with its twin.  The second one counts from a later
number. -/
theorem seq (hr : Twins mode IsNumbered pairs r r') (ht : Twins mode IsNumbered' pairs' t t')
    {g : α → β → γ}
    (hshift : ∀ {s y} (m : Nat), IsNumbered' s y → IsNumbered' (s.map (m + ·)) fun k => y (k + m))
    (hg : ∀ {s s' x y}, IsNumbered s x → IsNumbered' s' y →
      IsNumbered'' (s + s') fun k => g (x k) (y k)) :
    Twins mode IsNumbered'' (pairs ++ pairs') (do let u ← r; let v ← t; return g u v)
      (do let u ← r'; let v ← t'; return g u v) := by
  obtain ⟨plan, hplan, hr, hr'⟩ := hr
  obtain ⟨plan', hplan', ht, ht'⟩ := ht
  unfold Twins
  rw [List.map_append, List.map_append]
  cases plan with
  -- both stop where the first one fails
  | error e => exact ⟨.error e, nofun, hr.bind_error _ _, hr'.bind_error _ _⟩
  | ok x =>
    have hfirst := hr.seq ht g
    have hsecond := hr'.seq ht' g
    rw [List.length_map] at hfirst hsecond
    refine ⟨_, ?_, hfirst, hsecond⟩
    -- the second one counts from behind the placeholders of the first one
    intro z hz
    obtain ⟨y, hy, rfl⟩ := map_eq_ok.mp hz
    rw [List.length_append, Multiset.range_add]
    exact hg (hplan x rfl) (hshift pairs.length (hplan' y hy))

end Twins

end Render

end SqlAssembly

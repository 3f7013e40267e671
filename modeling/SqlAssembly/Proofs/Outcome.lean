import SqlAssembly.Allocator

namespace SqlAssembly

/-!
# Outcomes of computations

What is known when a computation succeeds.

* `bind_eq_ok`, `map_eq_ok` — a check in several steps succeeds if every step does;
* `bind_eq_error` — and fails with the error of the first step that fails;
* `failureOf` — the error, if a check failed;
* `Render.outcome_bind`, `Render.bind_eq_ok` — the same with an allocator that is handed on;
* one equation for `Render.outcome` of every primitive of `Render`.
-/

variable {ε α β : Type}

/-- Two steps succeed if the first one does and the second one does with what it gave. -/
theorem bind_eq_ok {x : Except ε α} {f : α → Except ε β} {b : β} :
    x >>= f = .ok b ↔ ∃ a, x = .ok a ∧ f a = .ok b := by
  cases x with
  | error e => exact ⟨nofun, nofun⟩
  | ok a =>
    constructor
    · exact fun h => ⟨a, rfl, h⟩
    · rintro ⟨a', h, hb⟩
      obtain rfl := Except.ok.inj h
      exact hb

/-- Two steps fail if the first one does, or the second one does with what the first one gave. -/
theorem bind_eq_error {x : Except ε α} {f : α → Except ε β} {e : ε} :
    x >>= f = .error e ↔ x = .error e ∨ ∃ a, x = .ok a ∧ f a = .error e := by
  cases x with
  | error e' =>
    constructor
    · exact fun h => .inl (congrArg Except.error (Except.error.inj h))
    · rintro (h | ⟨a, h, -⟩)
      · obtain rfl := Except.error.inj h
        rfl
      · cases h
  | ok a =>
    constructor
    · exact fun h => .inr ⟨a, rfl, h⟩
    · rintro (h | ⟨a', h, he⟩)
      · cases h
      · obtain rfl := Except.ok.inj h
        exact he

/-- A result that is changed afterwards was there before. -/
theorem map_eq_ok {x : Except ε α} {f : α → β} {b : β} :
    x.map f = .ok b ↔ ∃ a, x = .ok a ∧ f a = b := by
  cases x with
  | error e => exact ⟨nofun, nofun⟩
  | ok a =>
    constructor
    · exact fun h => ⟨a, rfl, Except.ok.inj h⟩
    · rintro ⟨a', h, rfl⟩
      obtain rfl := Except.ok.inj h
      rfl

/-- Changing a result afterwards adds no error. -/
theorem map_eq_error {x : Except ε α} {f : α → β} {e : ε} : x.map f = .error e ↔ x = .error e := by
  cases x with
  | error e' =>
    have hmap : (Except.error e' : Except ε α).map f = .error e' := rfl
    rw [hmap, Except.error.injEq, Except.error.injEq]
  | ok a => exact ⟨nofun, nofun⟩

/-- What went wrong, if anything did. -/
def failureOf {α : Type} : Except Error α → Option Error
  | .ok _ => none
  | .error err => some err

/-- Nothing went wrong if there is a result. -/
theorem failureOf_eq_none {x : Except Error α} : failureOf x = none ↔ ∃ a, x = .ok a := by
  cases x with
  | ok a => exact ⟨fun _ => ⟨a, rfl⟩, fun _ => rfl⟩
  | error err => exact ⟨nofun, nofun⟩

/-- What went wrong is the error. -/
theorem failureOf_eq_some {x : Except Error α} {err : Error} :
    failureOf x = some err ↔ x = .error err := by
  cases x with
  | ok a => exact ⟨nofun, nofun⟩
  | error err' => exact ⟨fun h => congrArg Except.error (Option.some.inj h),
      fun h => congrArg some (Except.error.inj h)⟩

/-- Changing a result afterwards changes nothing of what went wrong. -/
theorem failureOf_map (x : Except Error α) (f : α → β) : failureOf (x.map f) = failureOf x := by
  cases x <;> rfl

/-- Of two steps the first one that fails gives the error. -/
theorem failureOf_bind {x : Except Error α} {f : α → Except Error β} {second : Option Error}
    (h : ∀ a, failureOf (f a) = second) : failureOf (x >>= f) = (failureOf x).or second := by
  cases x with
  | ok a => exact h a
  | error err => rfl

namespace Render

variable {a a' : Allocator}

@[simp] theorem outcome_throw (e : Error) (a : Allocator) :
    (throw e : Render α).outcome a = (.error e, a) := rfl

@[simp] theorem outcome_get (a : Allocator) :
    (get : Render Allocator).outcome a = (.ok a, a) := rfl

/-- A check that knows nothing of the allocator leaves it as it is. -/
@[simp] theorem outcome_liftExcept (x : Except Error α) (a : Allocator) :
    (liftExcept x : Render α).outcome a = (x, a) := by
  cases x <;> rfl

/-- Binding a value gives the next placeholder. -/
@[simp] theorem outcome_bindValue (v : Value) (a : Allocator) :
    (Render.bind v).outcome a = (.ok (Allocator.placeholder a.next), a.bind v) := rfl

/-- Two steps: the second one starts where the first one stopped, unless that failed. -/
theorem outcome_bind (x : Render α) (f : α → Render β) (a : Allocator) :
    (x >>= f).outcome a =
      match x.outcome a with
      | (.ok v, a') => (f v).outcome a'
      | (.error e, a') => (.error e, a') := by
  show (ExceptT.bindCont f (x.outcome a).1).run (x.outcome a).2 = _
  rcases x.outcome a with ⟨e | v, m⟩ <;> rfl

/-- Two renderings succeed if the first one does and the second one does with what is left. -/
theorem bind_eq_ok {x : Render α} {f : α → Render β} {b : β} :
    (x >>= f).outcome a = (.ok b, a') ↔
      ∃ v m, x.outcome a = (.ok v, m) ∧ (f v).outcome m = (.ok b, a') := by
  rw [outcome_bind]
  rcases x.outcome a with ⟨e | v, m⟩
  · exact ⟨nofun, nofun⟩
  · constructor
    · exact fun h => ⟨v, m, rfl, h⟩
    · rintro ⟨v', m', h, hb⟩
      cases h
      exact hb

end Render

end SqlAssembly

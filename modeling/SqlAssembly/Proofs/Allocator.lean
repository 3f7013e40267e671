import Mathlib.Data.List.Nodup
import SqlAssembly.Proofs.Outcome

namespace SqlAssembly

/-!
# Runs of placeholders

What binding several values does to an allocator, and the placeholders that it gives them.

* `Allocator.bindAll` — the allocator after binding values one after the other;
* `Allocator.names` — the next placeholders;
* `Allocator.names_nodup` — no placeholder is ever given twice;
* `Render.outcome_bindAll` — the two are what `Render.bindAll` computes.
-/

namespace Allocator

variable (a : Allocator)

/-- The allocator after binding values from left to right. -/
def bindAll (vs : List Value) : Allocator := vs.foldl bind a

/-- The next `n` placeholders. -/
def names (n : Nat) : List String := (List.range' a.next n).map placeholder

@[simp] theorem bindAll_nil : a.bindAll [] = a := rfl

/-- Values are bound from left to right. -/
@[simp] theorem bindAll_cons (v : Value) (vs : List Value) :
    a.bindAll (v :: vs) = (a.bind v).bindAll vs := rfl

theorem bindAll_append (vs ws : List Value) :
    a.bindAll (vs ++ ws) = (a.bindAll vs).bindAll ws := List.foldl_append

/-- Binding does not touch the options. -/
@[simp] theorem bindAll_options (vs : List Value) : (a.bindAll vs).options = a.options := by
  induction vs generalizing a with
  | nil => rfl
  | cons v vs ih => exact ih (a.bind v)

/-- Every value takes one number. -/
@[simp] theorem bindAll_next (vs : List Value) :
    (a.bindAll vs).next = a.next + vs.length := by
  induction vs generalizing a with
  | nil => rfl
  | cons v vs ih =>
    have hnext : (a.bind v).next = a.next + 1 := rfl
    rw [bindAll_cons, ih, List.length_cons, hnext]
    omega

/-- The placeholder that comes next goes to the value that is bound next. -/
theorem names_succ (n : Nat) (v : Value) :
    a.names (n + 1) = placeholder a.next :: (a.bind v).names n := rfl

/-- The placeholders that come next are those of the values bound first, and those behind them. -/
theorem names_add (vs : List Value) (n : Nat) :
    a.names (vs.length + n) = a.names vs.length ++ (a.bindAll vs).names n := by
  rw [names, names, names, bindAll_next, ← List.map_append, List.range'_append_1]

/-- There are as many placeholders as are asked for. -/
@[simp] theorem length_names (n : Nat) : (a.names n).length = n := by simp [names]

/-- Values are kept in the order in which they are bound, each by its own placeholder. -/
theorem bindAll_entries (vs : List Value) :
    (a.bindAll vs).params.entries = a.params.entries ++ (a.names vs.length).zip vs := by
  induction vs generalizing a with
  | nil => simp
  | cons v vs ih =>
    -- the first value takes the first placeholder, the others take theirs behind it
    rw [bindAll_cons, ih, List.length_cons, a.names_succ vs.length v]
    simp [bind, Params.push]

/-- Different numbers have different placeholders: the number can be read back from its digits. -/
theorem placeholder_injective : Function.Injective placeholder := by
  intro m n h
  -- the dollar in front is the same, so the digits are
  have hdigits : Nat.toDigits 10 m = Nat.toDigits 10 n := by
    have hlist := congrArg String.toList h
    rw [placeholder, placeholder, String.toList_append, String.toList_append] at hlist
    simpa [Nat.toString_eq_ofList_toDigits] using List.append_cancel_left hlist
  calc
    m = Nat.ofDigitChars 10 (Nat.toDigits 10 m) 0 := Nat.ofDigitChars_ten_toDigits.symm
    _ = Nat.ofDigitChars 10 (Nat.toDigits 10 n) 0 := by rw [hdigits]
    _ = n := Nat.ofDigitChars_ten_toDigits

/-- No placeholder is given twice, because the numbers go up. -/
theorem names_nodup (n : Nat) : (a.names n).Nodup :=
  List.Nodup.map placeholder_injective List.nodup_range'

end Allocator

/-- Binding values gives the next placeholders, in order. -/
@[simp] theorem Render.outcome_bindAll (vs : List Value) (a : Allocator) :
    (Render.bindAll vs).outcome a = (.ok (a.names vs.length), a.bindAll vs) := by
  induction vs generalizing a with
  | nil => rfl
  | cons v vs ih =>
    rw [Render.bindAll, Render.outcome_bind, Render.outcome_bindValue]
    dsimp only
    rw [Render.outcome_bind, ih]
    rfl

end SqlAssembly

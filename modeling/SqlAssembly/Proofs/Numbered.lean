import Mathlib.Data.Multiset.Range
import SqlAssembly.Proofs.Query.Steps

namespace SqlAssembly

/-!
# Texts with placeholders of any numbers

A text may depend on the number of the next placeholder in one way only: by the placeholders that
stand in it, which are counted from this number.

* `Numbered` — such a text, as a function of the number, with the distances of its placeholders;
* `NumberedAll` — a list of such texts;
* `Numbered.shift` — counting from a later number;
* `NumberedAll.joinNonempty`, `NumberedAll.whereSuffix`, `NumberedAll.combine` — texts that are
  joined depend on the number in the same way.
-/

/-- A text made of fixed pieces and of the placeholders at the given distances from a number. -/
inductive Numbered : Multiset Nat → (Nat → String) → Prop
  | text (s : String) : Numbered 0 fun _ => s
  | slot (i : Nat) : Numbered {i} fun k => Allocator.placeholder (k + i)
  | append {s t : Multiset Nat} {x y : Nat → String} : Numbered s x → Numbered t y →
    Numbered (s + t) fun k => x k ++ y k

/-- Texts made of fixed pieces and of the placeholders at the given distances from a number. -/
inductive NumberedAll : Multiset Nat → (Nat → List String) → Prop
  | nil : NumberedAll 0 fun _ => []
  | cons {s t : Multiset Nat} {x : Nat → String} {xs : Nat → List String} : Numbered s x →
    NumberedAll t xs → NumberedAll (s + t) fun k => x k :: xs k

variable {s t : Multiset Nat}

namespace Numbered

variable {x y : Nat → String}

/-- Counted from a number that is `m` more, every placeholder is `m` further away. -/
theorem shift (m : Nat) (h : Numbered s x) : Numbered (s.map (m + ·)) fun k => x (k + m) := by
  induction h with
  | text s => exact .text s
  | slot i =>
    have hslot := slot (m + i)
    simpa only [Multiset.map_singleton, Nat.add_assoc] using hslot
  | append _ _ ihx ihy =>
    rw [Multiset.map_add]
    exact ihx.append ihy

/-- Fixed text in front of a numbered text leaves it numbered. -/
theorem prepend (text : String) (h : Numbered s x) : Numbered s fun k => text ++ x k := by
  simpa only [Multiset.zero_add] using (Numbered.text text).append h

theorem postpend (h : Numbered s x) (text : String) : Numbered s fun k => x k ++ text := by
  simpa only [Multiset.add_zero] using h.append (.text text)

/-- Whether there is a text at all does not depend on the number. -/
theorem eq_empty_iff (h : Numbered s x) (k l : Nat) : x k = "" ↔ x l = "" := by
  induction h with
  | text s => exact Iff.rfl
  | slot i => simp [Allocator.placeholder, String.append_eq_empty_iff]
  | append _ _ ihx ihy => rw [String.append_eq_empty_iff, String.append_eq_empty_iff, ihx, ihy]

/-- An empty text has no placeholders. -/
theorem eq_zero_of_eq_empty (h : Numbered s x) {k : Nat} (hk : x k = "") : s = 0 := by
  induction h with
  | text s => rfl
  | slot i => simp [Allocator.placeholder, String.append_eq_empty_iff] at hk
  | append _ _ ihx ihy =>
    obtain ⟨hx, hy⟩ := String.append_eq_empty_iff.mp hk
    rw [ihx hx, ihy hy, Multiset.add_zero]

/-- A text in place of another one, unless that is empty. -/
theorem unlessEmpty (hx : Numbered s x) (hy : Numbered s y) :
    Numbered s fun k => if (x k).isEmpty then "" else y k := by
  by_cases h0 : x 0 = ""
  · have htext : (fun k => if (x k).isEmpty then "" else y k) = fun _ => "" := by
      funext k
      rw [if_pos (String.isEmpty_iff.mpr ((hx.eq_empty_iff k 0).mpr h0))]
    rw [htext, hx.eq_zero_of_eq_empty h0]
    exact .text ""
  · have htext : (fun k => if (x k).isEmpty then "" else y k) = y := by
      funext k
      exact if_neg fun hk => h0 ((hx.eq_empty_iff k 0).mp (String.isEmpty_iff.mp hk))
    rw [htext]
    exact hy

end Numbered

namespace NumberedAll

variable {xs : Nat → List String}

/-- Counting all texts from a later number. -/
theorem shift (m : Nat) (h : NumberedAll s xs) :
    NumberedAll (s.map (m + ·)) fun k => xs (k + m) := by
  induction h with
  | nil => exact .nil
  | cons hx _ ih =>
    rw [Multiset.map_add]
    exact .cons (hx.shift m) ih

/-- Placeholders that come next, one after the other. -/
theorem placeholders (n : Nat) :
    NumberedAll (Multiset.range n) fun k => (List.range' k n).map Allocator.placeholder := by
  induction n with
  | zero => exact .nil
  | succ n ih =>
    have hrange : Multiset.range (n + 1) = {0} + (Multiset.range n).map (1 + ·) := by
      rw [Nat.add_comm n 1, Multiset.range_add]
      rfl
    rw [hrange]
    exact .cons (.slot 0) (ih.shift 1)

/-- Texts that are joined by a separator have the placeholders of all of them. -/
theorem intercalate (separator : String) (h : NumberedAll s xs) :
    Numbered s fun k => separator.intercalate (xs k) := by
  induction h with
  | nil => exact .text ""
  | @cons s t x xs hx hxs ih =>
    -- a separator stands behind every text but the last one
    cases hxs with
    | nil => simpa using hx
    | cons hy hys =>
      simp only [String.intercalate_cons_cons] at ih ⊢
      exact (hx.postpend separator).append ih

/-- Which texts are left out does not depend on the number. -/
theorem nonempty (h : NumberedAll s xs) :
    NumberedAll s fun k => (xs k).filter (fun text => !text.isEmpty) := by
  induction h with
  | nil => exact .nil
  | @cons s t x xs hx hxs ih =>
    -- a text that is left out has no placeholders, so none of them is lost
    by_cases h0 : x 0 = ""
    · have htexts : (fun k => (x k :: xs k).filter (fun text => !text.isEmpty))
          = fun k => (xs k).filter (fun text => !text.isEmpty) := by
        funext k
        simp [(hx.eq_empty_iff k 0).mpr h0]
      rw [htexts, hx.eq_zero_of_eq_empty h0, Multiset.zero_add]
      exact ih
    · have htexts : (fun k => (x k :: xs k).filter (fun text => !text.isEmpty))
          = fun k => x k :: (xs k).filter (fun text => !text.isEmpty) := by
        funext k
        have hk : x k ≠ "" := mt (hx.eq_empty_iff k 0).mp h0
        simp [hk]
      rw [htexts]
      exact .cons hx ih

/-- Numbered texts may be joined without the empty ones. -/
theorem joinNonempty (separator : String) (h : NumberedAll s xs) :
    Numbered s fun k => SqlAssembly.joinNonempty separator (xs k) :=
  h.nonempty.intercalate separator

/-- Whether there is a WHERE part does not depend on the number. -/
theorem whereSuffix (h : NumberedAll s xs) :
    Numbered s fun k => SqlAssembly.whereSuffix (xs k) :=
  (h.joinNonempty " AND ").unlessEmpty ((h.joinNonempty " AND ").prepend " WHERE ")

/-- Whether a group has a member does not depend on the number. -/
theorem combine (combinator : Combinator) (h : NumberedAll s xs) :
    Numbered s fun k => combinator.join (xs k) := by
  have hjoined := h.joinNonempty (" " ++ combinator.sql ++ " ")
  -- a group of nothing but empty texts is empty, with no parentheses
  exact hjoined.unlessEmpty ((hjoined.prepend "(").postpend ")")

/-- Columns set to texts, one each. -/
theorem assignments (h : NumberedAll s xs) (columns : List String)
    (hlength : ∀ k, (xs k).length = columns.length) :
    NumberedAll s fun k => (columns.zip (xs k)).map fun p => p.1 ++ " = " ++ p.2 := by
  induction h generalizing columns with
  | nil => simpa using NumberedAll.nil
  | @cons s t x xs hx _ ih =>
    cases columns with
    | nil => cases hlength 0
    | cons column columns =>
      have hassign : Numbered s fun k => column ++ " = " ++ x k := hx.prepend (column ++ " = ")
      exact .cons hassign (ih columns fun k => Nat.succ.inj (hlength k))

end NumberedAll

end SqlAssembly

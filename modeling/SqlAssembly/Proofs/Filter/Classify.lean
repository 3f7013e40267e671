import Mathlib.Data.List.Forall2
import SqlAssembly.Proofs.Filter.Test

namespace SqlAssembly

/-!
# Which filters become conditions

A filter becomes a condition if each of its tests has one of the forms, and then the condition has
the same shape as the filter.  Otherwise the filter is refused for the first test from the left that
has none of the forms.

* `Filter.tests` — the tests of a filter, from left to right;
* `Filter.Becomes` — a filter and the condition of the same shape;
* `Test.FirstRefused` — the error of the first test that has none of the forms;
* `Condition.classify_iff` — these are the filters that become conditions, and the errors of the
  others.
-/

/-! ### Filters and their conditions -/

mutual

/-- The tests of a filter at any depth, from left to right. -/
def Filter.tests : Filter → List Test
  | .test subject op operand => [⟨subject, op, operand⟩]
  | .group _ filters => Filter.allTests filters
  | .raw _ => []

/-- The tests of filters, from left to right. -/
def Filter.allTests : List Filter → List Test
  | [] => []
  | f :: rest => f.tests ++ Filter.allTests rest

end

/-- The condition has the shape of the filter: groups keep their combinator and their members in
order, SQL text stays as it is, and every test has the form that it fits. -/
inductive Filter.Becomes : Filter → Condition → Prop
  | test {subject : Operand} {op : String} {operand : Option Operand} {c : Condition} :
    Test.Fits ⟨subject, op, operand⟩ c → Becomes (.test subject op operand) c
  | group (combinator : Combinator) {filters : List Filter} {conditions : List Condition} :
    List.Forall₂ Becomes filters conditions →
    Becomes (.group combinator filters) (.group combinator conditions)
  | raw (sql : String) : Becomes (.raw sql) (.raw sql)

/-- Every test has one of the forms. -/
def Test.AllFit (tests : List Test) : Prop := ∀ t ∈ tests, ∃ c, t.Fits c

/-- The error is that of the first test that has none of the forms. -/
def Test.FirstRefused (tests : List Test) (e : Error) : Prop :=
  ∃ before t behind, tests = before ++ t :: behind ∧ AllFit before ∧ t.Refused e

/-! ### Tests from left to right -/

namespace Test

/-- The first test that is refused stands on the left, or on the right of tests that fit. -/
theorem firstRefused_append {left right : List Test} {e : Error} :
    FirstRefused (left ++ right) e ↔
      FirstRefused left e ∨ AllFit left ∧ FirstRefused right e := by
  constructor
  · rintro ⟨before, t, behind, htests, hbefore, ht⟩
    obtain ⟨between, rfl, hright⟩ | ⟨between, rfl, hright⟩ := List.append_eq_append_iff.mp htests
    · -- all tests on the left stand before the one that is refused
      have hleft : AllFit left := fun u hu => hbefore u (List.mem_append_left _ hu)
      have hbetween : AllFit between := fun u hu => hbefore u (List.mem_append_right _ hu)
      exact .inr ⟨hleft, between, t, behind, hright, hbetween, ht⟩
    · cases between with
      | nil =>
        rw [List.append_nil]
        exact .inr ⟨hbefore, [], t, behind, hright.symm, nofun, ht⟩
      | cons u between =>
        -- it is one of the tests on the left
        obtain ⟨rfl, rfl⟩ := List.cons.inj hright
        exact .inl ⟨before, _, between, rfl, hbefore, ht⟩
  · rintro (⟨before, t, behind, rfl, hbefore, ht⟩ | ⟨hleft, before, t, behind, rfl, hbefore, ht⟩)
    · exact ⟨before, t, behind ++ right, by simp, hbefore, ht⟩
    · refine ⟨left ++ before, t, behind, by simp, fun u hu => ?_, ht⟩
      obtain hu | hu := List.mem_append.mp hu
      · exact hleft u hu
      · exact hbefore u hu

/-- Where there is no test, none is refused. -/
theorem not_firstRefused_nil {e : Error} : ¬ FirstRefused [] e := by
  rintro ⟨before, t, behind, htests, -⟩
  cases (List.append_eq_nil_iff.mp htests.symm).2

/-- Of a single test, the first that is refused is that test. -/
theorem firstRefused_singleton {t : Test} {e : Error} : FirstRefused [t] e ↔ t.Refused e := by
  constructor
  · rintro ⟨before, u, behind, htests, -, hu⟩
    obtain ⟨-, ht⟩ | ⟨-, hnil⟩ := List.append_eq_singleton_iff.mp htests.symm
    · obtain ⟨rfl, -⟩ := List.cons.inj ht
      exact hu
    · cases hnil
  · exact fun h => ⟨[], t, [], rfl, nofun, h⟩

end Test

/-! ### A whole filter -/

namespace Condition

mutual

/-- A filter becomes a condition of its own shape. -/
theorem classify_eq_ok_iff : ∀ (f : Filter) (c : Condition), classify f = .ok c ↔ f.Becomes c
  | .test subject text operand, c => by
    rw [classify_test_eq_ok_iff]
    constructor
    · exact .test
    · rintro ⟨h⟩
      exact h
  | .group combinator filters, c => by
    rw [classify, bind_eq_ok]
    constructor
    · rintro ⟨conditions, hconditions, h⟩
      cases h
      exact .group combinator ((classifyAll_eq_ok_iff filters conditions).mp hconditions)
    · intro h
      cases h with
      | group _ hall => exact ⟨_, (classifyAll_eq_ok_iff filters _).mpr hall, rfl⟩
  | .raw sql, c => by
    rw [classify]
    constructor
    · intro h
      cases h
      exact .raw sql
    · rintro ⟨⟩
      rfl

/-- Filters become conditions of their shapes, one for each. -/
theorem classifyAll_eq_ok_iff : ∀ (filters : List Filter) (conditions : List Condition),
    classifyAll filters = .ok conditions ↔ List.Forall₂ Filter.Becomes filters conditions
  | [], conditions => by
    rw [classifyAll, List.forall₂_nil_left_iff]
    exact ⟨fun h => (Except.ok.inj h).symm, fun h => congrArg Except.ok h.symm⟩
  | f :: rest, conditions => by
    rw [classifyAll, List.forall₂_cons_left_iff]
    constructor
    · intro h
      obtain ⟨c, hc, h⟩ := bind_eq_ok.mp h
      obtain ⟨cs, hcs, h⟩ := bind_eq_ok.mp h
      cases h
      exact ⟨c, cs, (classify_eq_ok_iff f c).mp hc, (classifyAll_eq_ok_iff rest cs).mp hcs, rfl⟩
    · rintro ⟨c, cs, hc, hcs, rfl⟩
      refine bind_eq_ok.mpr ⟨c, (classify_eq_ok_iff f c).mpr hc, ?_⟩
      exact bind_eq_ok.mpr ⟨cs, (classifyAll_eq_ok_iff rest cs).mpr hcs, rfl⟩

end

mutual

/-- A filter becomes some condition if each of its tests has one of the forms. -/
theorem classify_ok_iff : ∀ f : Filter, (∃ c, classify f = .ok c) ↔ Test.AllFit f.tests
  | .test subject text operand => by
    simp only [classify_test_eq_ok_iff, Filter.tests, Test.AllFit, List.forall_mem_singleton]
  | .group combinator filters => by
    rw [Filter.tests, ← classifyAll_ok_iff filters]
    constructor
    · rintro ⟨c, h⟩
      rw [classify, bind_eq_ok] at h
      obtain ⟨conditions, h, -⟩ := h
      exact ⟨conditions, h⟩
    · rintro ⟨conditions, h⟩
      exact ⟨.group combinator conditions, bind_eq_ok.mpr ⟨conditions, h, rfl⟩⟩
  | .raw sql => by
    rw [Filter.tests]
    exact ⟨fun _ => nofun, fun _ => ⟨.raw sql, rfl⟩⟩

/-- Filters become some conditions if each of their tests has one of the forms. -/
theorem classifyAll_ok_iff : ∀ filters : List Filter,
    (∃ conditions, classifyAll filters = .ok conditions) ↔ Test.AllFit (Filter.allTests filters)
  | [] => ⟨fun _ => nofun, fun _ => ⟨[], rfl⟩⟩
  | f :: rest => by
    rw [Filter.allTests, Test.AllFit, List.forall_mem_append]
    show _ ↔ Test.AllFit _ ∧ Test.AllFit _
    rw [← classify_ok_iff f, ← classifyAll_ok_iff rest]
    simp only [classifyAll, bind_eq_ok]
    constructor
    · rintro ⟨_, c, hc, cs, hcs, -⟩
      exact ⟨⟨c, hc⟩, cs, hcs⟩
    · rintro ⟨⟨c, hc⟩, cs, hcs⟩
      exact ⟨c :: cs, c, hc, cs, hcs, rfl⟩

end

mutual

/-- A filter is refused for the first test that has none of the forms. -/
theorem classify_eq_error_iff : ∀ (f : Filter) (e : Error),
    classify f = .error e ↔ Test.FirstRefused f.tests e
  | .test subject text operand, e => by
    rw [classify_test_eq_error_iff, Filter.tests, Test.firstRefused_singleton]
  | .group combinator filters, e => by
    rw [Filter.tests, ← classifyAll_eq_error_iff filters, classify, bind_eq_error]
    -- a group fails only where one of its filters does
    constructor
    · rintro (h | ⟨conditions, -, h⟩)
      · exact h
      · cases h
    · exact .inl
  | .raw sql, e => by
    rw [Filter.tests]
    exact ⟨nofun, fun h => absurd h Test.not_firstRefused_nil⟩

/-- Filters are refused for the first test that has none of the forms. -/
theorem classifyAll_eq_error_iff : ∀ (filters : List Filter) (e : Error),
    classifyAll filters = .error e ↔ Test.FirstRefused (Filter.allTests filters) e
  | [], e => ⟨nofun, fun h => absurd h Test.not_firstRefused_nil⟩
  | f :: rest, e => by
    rw [Filter.allTests, Test.firstRefused_append, ← classify_eq_error_iff f,
      ← classifyAll_eq_error_iff rest, ← classify_ok_iff f, classifyAll, bind_eq_error]
    -- the first filter fails, or it is classified and one behind it fails
    refine or_congr_right ?_
    constructor
    · rintro ⟨c, hc, h⟩
      obtain h | ⟨cs, -, h⟩ := bind_eq_error.mp h
      · exact ⟨⟨c, hc⟩, h⟩
      · cases h
    · rintro ⟨⟨c, hc⟩, h⟩
      exact ⟨c, hc, bind_eq_error.mpr (.inl h)⟩

end

-- the blank column is reported, not the operator that nobody knows
example : classify (.any [.raw "a = b", .all [.test (.value (.text " ")) "is" none]])
    = .error .blankField := by
  rfl

end Condition

end SqlAssembly

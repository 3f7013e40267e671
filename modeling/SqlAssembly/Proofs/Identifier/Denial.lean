import SqlAssembly.Identifier.Name
import SqlAssembly.Proofs.Text.Blank
import SqlAssembly.Proofs.Text.Runs

namespace SqlAssembly

/-!
# Refusal and quotes

A name that is not refused is not refused between quotes either: a quote is no word character, so
a doubled one cuts a name into the same words as a single one.

* `Text.runs_quoted` — the words of a quoted text are those of the text;
* `Denial.of?_quoted` — quoting adds no reason to refuse a name;
* `Identifier.decode_quoted` — the name between quotes is read back;
* `Identifier.check_eq_ok`, `Identifier.check_quoted` — which texts pass the check.
-/

/-! ### Words between quotes -/

namespace Text

variable {inside : Char → Bool} {q : Char}

/-- Doubling a character outside the class changes no run, whatever stands before. -/
theorem runs_append_doubled (h : inside q = false) (x s : List Char) :
    runs inside (x ++ doubled q s) = runs inside (x ++ s) := by
  induction s generalizing x with
  | nil => rfl
  | cons c s ih =>
    by_cases hc : c = q
    · subst hc
      -- a quote outside of words separates them, be it single or doubled
      have hrest : runs inside (doubled c s) = runs inside s := ih []
      calc
        runs inside (x ++ doubled c (c :: s)) = runs inside (x ++ c :: c :: doubled c s) := by
          rw [doubled, if_pos rfl]
        _ = runs inside x ++ runs inside s := by
          rw [runs_append_cons h, runs_cons_outside h, hrest]
        _ = runs inside (x ++ c :: s) := (runs_append_cons h x s).symm
    · rw [doubled, if_neg hc, List.append_cons, ih, ← List.append_cons]

/-- A quoted text has the words of the text. -/
theorem runs_quoted (h : inside q = false) (s : List Char) :
    runs inside (quoted q s) = runs inside s := by
  have hdoubled : runs inside (doubled q s) = runs inside s := runs_append_doubled h [] s
  calc
    runs inside (quoted q s) = runs inside (doubled q s ++ [q]) := runs_cons_outside h _
    _ = runs inside (doubled q s) ++ runs inside [] := runs_append_cons h _ []
    _ = runs inside s := by rw [hdoubled]; exact List.append_nil _

end Text

/-! ### Reasons to refuse a quoted name -/

namespace Denial

/-- A reason that applies to a quoted name applies to the name. -/
theorem applies_of_applies_quoted {d : Denial} {name : List Char}
    (h : d.applies (Text.quoted '"' name) = true) : d.applies name = true := by
  unfold applies at h ⊢
  cases hkeyword : d.keyword? with
  | none =>
    -- what ends with a quote does not end with a semicolon
    rw [hkeyword] at h
    dsimp only at h
    rw [Text.quoted, Text.trimEnd_concat (by decide), List.getLast?_append] at h
    cases h
  | some keyword =>
    rw [hkeyword] at h
    dsimp only at h ⊢
    rwa [Text.runs_quoted (by decide +kernel)] at h

/-- There is no reason to refuse a text if none of them applies. -/
theorem of?_eq_none_iff {s : List Char} :
    of? s = none ↔ ∀ d ∈ all, d.applies s = false := by
  simp [of?]

/-- A name that is not refused is not refused between quotes. -/
theorem of?_quoted {name : List Char} (h : of? name = none) :
    of? (Text.quoted '"' name) = none := by
  rw [of?_eq_none_iff] at h ⊢
  intro d hd
  refine Bool.eq_false_iff.mpr fun hquoted => ?_
  have happlies := applies_of_applies_quoted hquoted
  rw [h d hd] at happlies
  cases happlies

end Denial

/-! ### Checking a quoted name -/

namespace Identifier

/-- A name that may stand between quotes: it is not empty, and nothing speaks against it. -/
structure Admissible (name : List Char) : Prop where
  ne_nil : name ≠ []
  not_denied : Denial.of? name = none

/-- The quoted form of a name is a quoted name, unless the name is empty. -/
theorem quotedName?_quoted {name : List Char} (h : name ≠ []) :
    quotedName? (Text.quoted '"' name) = some name := by
  simp [quotedName?, Text.unquote?_quoted, h]

/-- The quoted form of a name stands for that name. -/
theorem decode_quoted {name : List Char} (h : name ≠ []) :
    decode (Text.quoted '"' name) = name := by
  rw [decode, quotedName?_quoted h, Option.getD_some]

/-- A text that does not begin with a quote stands for itself. -/
theorem quotedName?_cons {c : Char} (h : c ≠ '"') (s : List Char) :
    quotedName? (c :: s) = none := by
  simp [quotedName?, Text.unquote?, h]

/-- What is no quoted name stands for itself. -/
theorem decode_of_quotedName? {s : List Char} (h : quotedName? s = none) : decode s = s := by
  rw [decode, h, Option.getD_none]

/-- What stands between quotes is not empty. -/
theorem decode_ne_nil {s : List Char} (h : s ≠ []) : decode s ≠ [] := by
  unfold decode
  cases hname : quotedName? s with
  | none => exact h
  | some inner =>
    obtain ⟨-, hinner⟩ := Option.filter_eq_some_iff.mp hname
    simpa using hinner

/-- A text passes the check if nothing speaks against it or against the name it stands for. -/
theorem check_eq_ok {s : List Char} :
    check s = .ok () ↔ Denial.of? s = none ∧ Denial.of? (decode s) = none := by
  unfold check
  cases hs : Denial.of? s with
  | some d => simp
  | none =>
    cases hdecode : Denial.of? (decode s) with
    | some d => simp
    | none => simp

/-- A name that is no quoted name passes the check if nothing speaks against it. -/
theorem check_of_quotedName? {s : List Char} (h : quotedName? s = none)
    (hdenied : Denial.of? s = none) : check s = .ok () := by
  rw [check_eq_ok, decode_of_quotedName? h]
  exact ⟨hdenied, hdenied⟩

/-- The quoted form of an admissible name passes the check. -/
theorem check_quoted {name : List Char} (h : Admissible name) :
    check (Text.quoted '"' name) = .ok () := by
  rw [check_eq_ok, decode_quoted h.ne_nil]
  exact ⟨Denial.of?_quoted h.not_denied, h.not_denied⟩

end Identifier

end SqlAssembly

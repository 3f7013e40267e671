import SqlAssembly.Text.Runs

namespace SqlAssembly.Text

/-!
# Maximal runs

What cutting a text finds: the parts of it that lie in a class, with no character of the class right
before them or right behind them.

* `runs_eq_singleton`, `runs_cons_outside` — a text within the class, and a character outside it;
* `IsRun`, `mem_runs_iff` — the runs of a text, told by what stands around them.
-/

variable {inside : Char → Bool}

/-- A text without separators is one piece. -/
theorem pieces_eq_singleton {sep : Char → Bool} {s : List Char} (h : ∀ c ∈ s, sep c = false) :
    pieces sep s = [s] := by
  induction s with
  | nil => rfl
  | cons c s ih =>
    rw [List.forall_mem_cons] at h
    rw [pieces, if_neg (Bool.eq_false_iff.mp h.1), ih h.2]
    rfl

/-- A text of characters of the class is one run. -/
theorem runs_eq_singleton {s : List Char} (hne : s ≠ []) (h : ∀ c ∈ s, inside c = true) :
    runs inside s = [s] := by
  have hpieces : pieces (fun c => !inside c) s = [s] :=
    pieces_eq_singleton fun c hc => by simp [h c hc]
  simp [runs, hpieces, hne]

/-- A character outside the class in front of a text makes no difference to its runs. -/
theorem runs_cons_outside {c : Char} (h : inside c = false) (s : List Char) :
    runs inside (c :: s) = runs inside s :=
  runs_append_cons h [] s

/-! ### What stands around a run -/

/-- A part of the text within the class that is not empty, with no character of the class right
before it or right behind it. -/
def IsRun (inside : Char → Bool) (w s : List Char) : Prop :=
  w ≠ [] ∧ (∀ c ∈ w, inside c = true) ∧ ∃ before behind, s = before ++ w ++ behind ∧
    (∀ c ∈ before.getLast?, inside c = false) ∧ ∀ c ∈ behind.head?, inside c = false

/-- A text of the class between characters outside it is one of the runs. -/
theorem mem_runs_of_boundaries {before w behind : List Char} (hne : w ≠ [])
    (hw : ∀ c ∈ w, inside c = true) (hbefore : ∀ c ∈ before.getLast?, inside c = false)
    (hbehind : ∀ c ∈ behind.head?, inside c = false) :
    w ∈ runs inside (before ++ w ++ behind) := by
  -- what stands behind is cut off first
  have hfront : w ∈ runs inside (before ++ w) := by
    rcases List.eq_nil_or_concat before with rfl | ⟨init, c, rfl⟩
    · rw [List.nil_append, runs_eq_singleton hne hw]
      exact List.mem_singleton_self w
    · have hc : inside c = false := hbefore c (by simp)
      rw [List.concat_eq_append, List.append_assoc, List.singleton_append, runs_append_cons hc,
        runs_eq_singleton hne hw]
      exact List.mem_append_right _ (List.mem_singleton_self w)
  cases behind with
  | nil => rwa [List.append_nil]
  | cons c rest =>
    have hc : inside c = false := hbehind c rfl
    rw [runs_append_cons hc]
    exact List.mem_append_left _ hfront

/-- The first piece goes up to the first separator, and a separator stands in front of every other
piece. -/
theorem exists_pieces (sep : Char → Bool) (s : List Char) : ∃ p ps, pieces sep s = p :: ps ∧
    (∃ behind, s = p ++ behind ∧ ∀ c ∈ behind.head?, sep c = true) ∧
    ∀ q ∈ ps, ∃ before c behind, s = before ++ c :: (q ++ behind) ∧ sep c = true ∧
      ∀ d ∈ behind.head?, sep d = true := by
  induction s with
  | nil => exact ⟨[], [], rfl, ⟨[], rfl, nofun⟩, nofun⟩
  | cons c s ih =>
    obtain ⟨p, ps, hps, ⟨behind, hs, hbehind⟩, hrest⟩ := ih
    have hothers : ∀ q ∈ ps, ∃ before d behind, c :: s = before ++ d :: (q ++ behind) ∧
        sep d = true ∧ ∀ d ∈ behind.head?, sep d = true := by
      intro q hq
      obtain ⟨before, d, behind, rfl, hd, hbehind⟩ := hrest q hq
      exact ⟨c :: before, d, behind, rfl, hd, hbehind⟩
    -- a separator puts an empty piece in front, any other character goes to the first piece
    by_cases hc : sep c = true
    · refine ⟨[], p :: ps, by rw [pieces, if_pos hc, hps], ⟨c :: s, rfl, ?_⟩, ?_⟩
      · intro d hd
        obtain rfl := Option.some.inj hd
        exact hc
      · rw [List.forall_mem_cons]
        exact ⟨⟨[], c, behind, by rw [hs]; rfl, hc, hbehind⟩, hothers⟩
    · refine ⟨c :: p, ps, by rw [pieces, if_neg hc, hps]; rfl, ⟨behind, ?_, hbehind⟩, hothers⟩
      rw [hs]
      rfl

/-- No separator stands in a piece. -/
theorem not_sep_of_mem_pieces {sep : Char → Bool} {s : List Char} :
    ∀ piece ∈ pieces sep s, ∀ c ∈ piece, sep c = false := by
  induction s with
  | nil => exact List.forall_mem_singleton.mpr nofun
  | cons c s ih =>
    obtain ⟨p, ps, hps, -⟩ := exists_pieces sep s
    rw [hps, List.forall_mem_cons] at ih
    rw [pieces, hps]
    split
    · exact List.forall_mem_cons.mpr ⟨nofun, List.forall_mem_cons.mpr ih⟩
    · next hc =>
      refine List.forall_mem_cons.mpr ⟨?_, ih.2⟩
      exact List.forall_mem_cons.mpr ⟨Bool.eq_false_iff.mpr hc, ih.1⟩

/-- The runs are the parts within the class that nothing of the class touches. -/
theorem mem_runs_iff {w s : List Char} : w ∈ runs inside s ↔ IsRun inside w s := by
  constructor
  · intro h
    obtain ⟨hpiece, hne⟩ := List.mem_filter.mp h
    -- a run is a piece that is not empty, so its characters are within the class
    have hinside : ∀ c ∈ w, inside c = true := fun c hc => by
      simpa using not_sep_of_mem_pieces w hpiece c hc
    refine ⟨by simpa using hne, hinside, ?_⟩
    obtain ⟨p, ps, hps, ⟨behind, hs, hbehind⟩, hrest⟩ := exists_pieces (fun c => !inside c) s
    rw [hps] at hpiece
    -- the first piece has nothing in front of it; before any other one stands a separator
    rcases List.mem_cons.mp hpiece with rfl | hmem
    · exact ⟨[], behind, by rw [hs]; rfl, nofun, fun c hc => by simpa using hbehind c hc⟩
    · obtain ⟨before, c, behind, rfl, hc, hbehind⟩ := hrest w hmem
      refine ⟨before ++ [c], behind, by simp, ?_, fun d hd => by simpa using hbehind d hd⟩
      intro d hd
      rw [List.getLast?_concat] at hd
      obtain rfl := Option.some.inj hd
      simpa using hc
  · rintro ⟨hne, hw, before, behind, rfl, hbefore, hbehind⟩
    exact mem_runs_of_boundaries hne hw hbefore hbehind

end SqlAssembly.Text

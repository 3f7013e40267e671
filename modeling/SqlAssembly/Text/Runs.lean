namespace SqlAssembly.Text

/-!
# Pieces and runs

A text is cut at every separator into pieces; the runs of a class of characters are the pieces
between the characters outside it that hold anything.

* `pieces` — all pieces, empty ones included, so that there is always one more than separators;
* `runs` — the maximal runs of a class, in order;
* `pieces_append_cons`, `runs_append_cons` — a separator anywhere cuts the text in two.
-/

/-- The pieces of a text between the characters that satisfy `sep`. -/
def pieces (sep : Char → Bool) : List Char → List (List Char)
  | [] => [[]]
  | c :: s => if sep c then [] :: pieces sep s else (pieces sep s).modifyHead (c :: ·)

/-- The maximal runs of characters that satisfy `inside`. -/
def runs (inside : Char → Bool) (s : List Char) : List (List Char) :=
  (pieces (fun c => !inside c) s).filter (fun piece => !piece.isEmpty)

/-- Even a text without characters has a piece, the empty one. -/
theorem pieces_ne_nil (sep : Char → Bool) (s : List Char) : pieces sep s ≠ [] := by
  induction s with
  | nil => simp [pieces]
  | cons c s ih =>
    by_cases h : sep c
    · simp [pieces, h]
    · cases hp : pieces sep s with
      | nil => exact absurd hp ih
      | cons p ps => simp [pieces, h, hp]

/-- A separator cuts a text into two texts that have nothing to do with each other. -/
theorem pieces_append_cons {sep : Char → Bool} {c : Char} (h : sep c = true) (x y : List Char) :
    pieces sep (x ++ c :: y) = pieces sep x ++ pieces sep y := by
  induction x with
  | nil => simp [pieces, h]
  | cons d x ih =>
    simp only [List.cons_append, pieces, ih]
    split
    · rfl
    · cases hp : pieces sep x with
      | nil => exact absurd hp (pieces_ne_nil sep x)
      | cons p ps => rfl

/-- A character outside the class belongs to no run. -/
theorem runs_append_cons {inside : Char → Bool} {c : Char} (h : inside c = false)
    (x y : List Char) : runs inside (x ++ c :: y) = runs inside x ++ runs inside y := by
  have hc : (!inside c) = true := by simp [h]
  rw [runs, pieces_append_cons hc, List.filter_append]
  rfl

end SqlAssembly.Text

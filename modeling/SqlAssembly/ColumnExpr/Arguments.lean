import SqlAssembly.Text.Blank

namespace SqlAssembly

/-!
# Argument lists

The arguments of a call stand between commas that are neither inside parentheses nor inside
quotes.  A doubled quote closes and opens again, so it needs no rule of its own.

* `ArgumentList.topLevel` — the pieces between those commas;
* `ArgumentList.split` — the trimmed arguments; a blank piece at the end is no argument;
* `ArgumentList.measure_split_le` — the arguments are shorter than the list.
-/

namespace ArgumentList

/-- The pieces between the commas at depth zero, from inside `depth` parentheses and, if there is
one, an open quote. -/
def topLevel (depth : Int) : Option Char → List Char → List (List Char)
  | _, [] => [[]]
  | some q, c :: s => (topLevel depth (if c = q then none else some q) s).modifyHead (c :: ·)
  | none, c :: s =>
    if c = ',' ∧ depth = 0 then [] :: topLevel depth none s
    else if c = '"' ∨ c = '\'' then (topLevel depth (some c) s).modifyHead (c :: ·)
    else if c = '(' then (topLevel (depth + 1) none s).modifyHead (c :: ·)
    else if c = ')' then (topLevel (depth - 1) none s).modifyHead (c :: ·)
    else (topLevel depth none s).modifyHead (c :: ·)

/-- The arguments of a list, without the blanks around them. -/
def split (s : List Char) : List (List Char) :=
  let arguments := (topLevel 0 none s).map Text.trim
  if arguments.getLast? = some [] then arguments.dropLast else arguments

/-- The lengths of the pieces, each with the comma behind it. -/
def measure : List (List Char) → Nat
  | [] => 0
  | p :: ps => p.length + 1 + measure ps

/-- A character more in the first piece adds one to the measure at most. -/
theorem measure_modifyHead_le (c : Char) (ps : List (List Char)) :
    measure (ps.modifyHead (c :: ·)) ≤ measure ps + 1 := by
  cases ps with
  | nil => simp [measure]
  | cons p ps =>
    simp only [measure, List.modifyHead_cons, List.length_cons]
    omega

/-- The pieces of a text, with the commas between them, are not longer than the text.  By the
recursion of `topLevel`; every case but the comma adds one character to the first piece. -/
theorem measure_topLevel_le (depth : Int) (quote : Option Char) (s : List Char) :
    measure (topLevel depth quote s) ≤ s.length + 1 := by
  fun_induction topLevel depth quote s with
  | case1 => simp [measure]
  | case2 depth q c s ih =>
    refine Nat.le_trans (measure_modifyHead_le _ _) ?_
    simpa using ih
  | case3 depth c s h ih =>
    simp only [measure, List.length_nil, List.length_cons] at *
    omega
  | case4 depth c s _ _ ih => exact Nat.le_trans (measure_modifyHead_le _ _) (by simpa using ih)
  | case5 depth s _ _ ih => exact Nat.le_trans (measure_modifyHead_le _ _) (by simpa using ih)
  | case6 depth s _ _ _ ih => exact Nat.le_trans (measure_modifyHead_le _ _) (by simpa using ih)
  | case7 depth c s _ _ _ _ ih =>
    exact Nat.le_trans (measure_modifyHead_le _ _) (by simpa using ih)

/-- Trimmed pieces are not longer than the pieces. -/
theorem measure_map_trim_le (ps : List (List Char)) : measure (ps.map Text.trim) ≤ measure ps := by
  induction ps with
  | nil => simp [measure]
  | cons p ps ih =>
    have := Text.trim_length_le p
    simp only [measure, List.map_cons] at *
    omega

/-- Without the last piece the measure is not larger. -/
theorem measure_dropLast_le (ps : List (List Char)) : measure ps.dropLast ≤ measure ps := by
  induction ps with
  | nil => simp [measure]
  | cons p ps ih =>
    cases ps with
    | nil => simp [measure]
    | cons q qs =>
      simp only [measure, List.dropLast_cons_cons] at *
      omega

/-- The arguments of a list, each with the comma behind it, are not longer than the list with one
comma more.  This is why reading them comes to an end. -/
theorem measure_split_le (s : List Char) : measure (split s) ≤ s.length + 1 := by
  have h1 := measure_topLevel_le 0 none s
  have h2 := measure_map_trim_le (topLevel 0 none s)
  have h3 := measure_dropLast_le ((topLevel 0 none s).map Text.trim)
  simp only [split]
  split <;> omega

end ArgumentList

/-- The arguments of a function call, each trimmed.  Commas inside parentheses and quotes do not
separate, and a blank list has no arguments. -/
def splitArguments (arguments : String) : List String :=
  (ArgumentList.split arguments.toList).map String.ofList

end SqlAssembly

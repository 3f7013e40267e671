namespace SqlAssembly.Text

/-!
# Quoted texts

Names and literals are written between quotes, with every quote inside written twice.  Reading
goes up to the first quote that is not doubled.

* `doubled` — every quote twice;
* `quoted` — the quoted form of a text;
* `closeQuote` — reads what follows an opening quote;
* `unquote?` — the text of which the argument is the quoted form, if it is one;
* `closeQuote_doubled`, `eq_doubled_of_closeQuote`, `unquote?_quoted`, `eq_quoted_of_unquote?` —
  reading gives back what was written, and nothing else.
-/

/-- The text with every `q` written twice. -/
def doubled (q : Char) : List Char → List Char
  | [] => []
  | c :: s => if c = q then q :: q :: doubled q s else c :: doubled q s

/-- The text between quotes `q`, with the quotes inside doubled. -/
def quoted (q : Char) (s : List Char) : List Char := q :: doubled q s ++ [q]

/-- Reads the text after an opening quote `q`: its characters up to the closing quote, with
doubled quotes halved, and what follows the closing quote. -/
def closeQuote (q : Char) : List Char → Option (List Char × List Char)
  | [] => none
  | [c] => if c = q then some ([], []) else none
  | c :: d :: s =>
    if c = q then
      if d = q then (closeQuote q s).map fun r => (q :: r.1, r.2) else some ([], d :: s)
    else (closeQuote q (d :: s)).map fun r => (c :: r.1, r.2)

/-- The text whose quoted form is exactly `s`. -/
def unquote? (q : Char) : List Char → Option (List Char)
  | [] => none
  | c :: s =>
    if c = q then
      match closeQuote q s with
      | some (inner, []) => some inner
      | _ => none
    else none

/-- What was written between quotes is read back, unless one more quote follows the closing one. -/
theorem closeQuote_doubled (q : Char) (s : List Char) {rest : List Char}
    (h : rest.head? ≠ some q) : closeQuote q (doubled q s ++ q :: rest) = some (s, rest) := by
  induction s with
  | nil =>
    cases rest with
    | nil => simp [doubled, closeQuote]
    | cons d r =>
      have : d ≠ q := by simpa using h
      simp [doubled, closeQuote, this]
  | cons c s ih =>
    -- a quote was doubled; any other character stands for itself
    by_cases hc : c = q
    · simp [doubled, closeQuote, hc, ih]
    · cases hd : doubled q s ++ q :: rest with
      | nil => simp at hd
      | cons d r => rw [hd] at ih; simp [doubled, closeQuote, hc, hd, ih]

/-- What was read and what follows make up the text again. -/
theorem eq_doubled_of_closeQuote {q : Char} {s : List Char} {r : List Char × List Char}
    (h : closeQuote q s = some r) : s = doubled q r.1 ++ q :: r.2 := by
  fun_induction closeQuote q s generalizing r with
  | case1 => cases h
  | case2 =>
    cases h
    simp [doubled]
  | case3 => cases h
  | case4 s ih =>
    obtain ⟨r', hr', rfl⟩ := Option.map_eq_some_iff.mp h
    simp [doubled, ← ih hr']
  | case5 =>
    cases h
    simp [doubled]
  | case6 c d s hc ih =>
    obtain ⟨r', hr', rfl⟩ := Option.map_eq_some_iff.mp h
    simp [doubled, hc, ← ih hr']

/-- A quoted text ends at the same quote whatever follows, unless that is one more quote. -/
theorem closeQuote_append {q : Char} {s : List Char} {r : List Char × List Char}
    (h : closeQuote q s = some r) {rest : List Char} (hr : rest.head? ≠ some q) :
    closeQuote q (s ++ rest) = some (r.1, r.2 ++ rest) := by
  fun_induction closeQuote q s generalizing r with
  | case1 => cases h
  | case2 =>
    cases h
    cases rest with
    | nil => simp [closeQuote]
    | cons d rest =>
      have hd : d ≠ q := by simpa using hr
      simp [closeQuote, hd]
  | case3 => cases h
  | case4 s ih =>
    obtain ⟨r', hr', rfl⟩ := Option.map_eq_some_iff.mp h
    simp [closeQuote, ih hr']
  | case5 d s hd =>
    cases h
    simp [closeQuote, hd]
  | case6 c d s hc ih =>
    obtain ⟨r', hr', rfl⟩ := Option.map_eq_some_iff.mp h
    have hstep : closeQuote q (d :: (s ++ rest)) = some (r'.1, r'.2 ++ rest) := ih hr'
    simp [closeQuote, hc, hstep]

/-- A quoted form stands for the text that it was made from. -/
theorem unquote?_quoted (q : Char) (s : List Char) : unquote? q (quoted q s) = some s := by
  have h : closeQuote q (doubled q s ++ [q]) = some (s, []) := closeQuote_doubled q s (by simp)
  simp [unquote?, quoted, h]

/-- Only the quoted form of a text stands for it. -/
theorem eq_quoted_of_unquote? {q : Char} {s inner : List Char} (h : unquote? q s = some inner) :
    s = quoted q inner := by
  fun_cases unquote? q s with
  | case1 => simp [unquote?] at h
  | case2 s inner' hr =>
    simp only [unquote?, ↓reduceIte, hr, Option.some.injEq] at h
    rw [eq_doubled_of_closeQuote hr, h]
    rfl
  | case3 s hr => simp_all [unquote?]
  | case4 c s hc => simp [unquote?, hc] at h

end SqlAssembly.Text

namespace SqlAssembly.Text

/-!
# Letter case

Case is ignored by simple case folding.  Two letters beyond ASCII fold to ASCII ones: the long s
U+017F to `s`, and the kelvin sign U+212A to `k`.  So they are letters wherever ASCII letters are
asked for without regard to case, and they may stand in for theirs in a keyword.

* `isLetter` — an ASCII letter up to case;
* `fold` — the ASCII capital that a character folds to, all other characters being themselves;
* `upper` — the capital of a letter: the long s has an ASCII capital, the kelvin sign is one.
-/

/-- A character that folds to an ASCII letter. -/
def isLetter (c : Char) : Bool := c.isAlpha || c == '\u017f' || c == '\u212a'

/-- The ASCII capital that a character folds to, or the character itself. -/
def fold (c : Char) : Char :=
  if c == '\u017f' then 'S' else if c == '\u212a' then 'K' else c.toUpper

/-- The capital letter of a character that satisfies `isLetter`, any other ASCII as it is. -/
def upper (c : Char) : Char := if c == '\u017f' then 'S' else c.toUpper

/-- The text is the keyword, up to case. -/
def isKeyword (keyword : String) (s : List Char) : Bool := s.map fold == keyword.toList

end SqlAssembly.Text

namespace SqlAssembly.Text

/-!
# Blank characters

A blank is a character with the Unicode property White_Space.  Texts are trimmed of blanks at
their ends, and what separates the words of an operator or the parts of an expression is always
a run of blanks.

* `isBlank` — the property itself;
* `skipBlanks`, `trimEnd`, `trim` — a text without its leading blanks, its trailing blanks, both;
* `allBlank` — the text holds nothing else.
-/

/-- The characters with the Unicode property White_Space. -/
def isBlank (c : Char) : Bool :=
  let n := c.toNat
  (0x09 ≤ n && n ≤ 0x0D) || n == 0x20 || n == 0x85 || n == 0xA0 || n == 0x1680 ||
    (0x2000 ≤ n && n ≤ 0x200A) || n == 0x2028 || n == 0x2029 || n == 0x202F ||
    n == 0x205F || n == 0x3000

/-- The text from its first character that is no blank. -/
def skipBlanks (s : List Char) : List Char := s.dropWhile isBlank

/-- The text up to its last character that is no blank. -/
def trimEnd (s : List Char) : List Char := (s.reverse.dropWhile isBlank).reverse

/-- The text without the blanks at its two ends. -/
def trim (s : List Char) : List Char := trimEnd (skipBlanks s)

/-- Nothing but blanks, or nothing at all. -/
def allBlank (s : List Char) : Bool := s.all isBlank

/-- Skipping blanks does not make a text longer. -/
theorem skipBlanks_length_le (s : List Char) : (skipBlanks s).length ≤ s.length :=
  (List.dropWhile_sublist isBlank).length_le

/-- Trimming does not make a text longer. -/
theorem trim_length_le (s : List Char) : (trim s).length ≤ s.length := by
  have h := (List.dropWhile_sublist isBlank (l := (skipBlanks s).reverse)).length_le
  have := skipBlanks_length_le s
  simp only [trim, trimEnd, List.length_reverse] at *
  omega

end SqlAssembly.Text

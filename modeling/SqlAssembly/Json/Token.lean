import SqlAssembly.Text.Hex

namespace SqlAssembly.Json

/-!
# JSON tokens

The tokens of a JSON text as they are written: a number keeps its digits, a string its escapes of
code units, so that a part of a document that nobody asks for is never interpreted.

* `Token` — punctuation, literals, numbers and strings;
* `Token.read` — the token at the start of a text;
* `tokens` — all tokens of a text.
-/

/-- A character of a string, or a UTF-16 code unit written as an escape. -/
inductive TextUnit where
  | char (c : Char)
  | code (n : Nat)
  deriving DecidableEq, Repr

/-- A number as written. -/
structure NumberText where
  negative : Bool
  whole : List Char
  fraction : List Char
  /-- Its sign is a minus, and its digits. -/
  exponent : Option (Bool × List Char)
  deriving DecidableEq, Repr

inductive Token where
  | openObject
  | closeObject
  | openArray
  | closeArray
  | colon
  | comma
  | null
  | bool (b : Bool)
  | number (n : NumberText)
  | text (units : List TextUnit)
  deriving DecidableEq, Repr

/-- The four characters that may stand between tokens. -/
def isSpace (c : Char) : Bool := c == ' ' || c == '\t' || c == '\n' || c == '\r'

/-- The code unit of four hex digits. -/
def codeUnit? (a b c d : Char) : Option Nat := do
  let a ← Text.hexValue? a
  let b ← Text.hexValue? b
  let c ← Text.hexValue? c
  let d ← Text.hexValue? d
  return ((a * 16 + b) * 16 + c) * 16 + d

/-- The character that a backslash and `c` stand for. -/
def shortEscape? (c : Char) : Option Char :=
  if c == '"' || c == '\\' || c == '/' then some c
  else if c == 'b' then some '\x08'
  else if c == 'f' then some '\x0c'
  else if c == 'n' then some '\n'
  else if c == 'r' then some '\r'
  else if c == 't' then some '\t'
  else none

/-- Reads what follows an opening quote, through the closing one. -/
def readText : List Char → Option (List TextUnit × List Char)
  | [] => none
  | '"' :: s => some ([], s)
  | '\\' :: 'u' :: a :: b :: c :: d :: s =>
    match codeUnit? a b c d, readText s with
    | some n, some (units, rest) => some (.code n :: units, rest)
    | _, _ => none
  | '\\' :: c :: s =>
    match shortEscape? c, readText s with
    | some x, some (units, rest) => some (.char x :: units, rest)
    | _, _ => none
  | c :: s =>
    match readText s with
    | some (units, rest) => if c.toNat < 0x20 then none else some (.char c :: units, rest)
    | none => none

/-- The digits at the start of a text, which must be there, and what follows. -/
def readDigits (s : List Char) : Option (List Char × List Char) :=
  if (s.takeWhile Char.isDigit).isEmpty then none
  else some (s.takeWhile Char.isDigit, s.dropWhile Char.isDigit)

/-- The part behind a point, if there is one. -/
def readFraction : List Char → Option (List Char × List Char)
  | '.' :: s => readDigits s
  | s => some ([], s)

/-- The part behind an `e`, if there is one. -/
def readExponent : List Char → Option (Option (Bool × List Char) × List Char)
  | c :: s =>
    if c == 'e' || c == 'E' then
      let (minus, s) := match s with
        | '-' :: r => (true, r)
        | '+' :: r => (false, r)
        | r => (false, r)
      (readDigits s).map fun r => (some (minus, r.1), r.2)
    else some (none, c :: s)
  | [] => some (none, [])

/-- Reads a number.  Only a lone zero begins with one. -/
def readNumber (s : List Char) : Option (NumberText × List Char) := do
  let (negative, s) := match s with
    | '-' :: r => (true, r)
    | r => (false, r)
  let (whole, s) ← readDigits s
  if 1 < whole.length ∧ whole.head? = some '0' then none
  else
    let (fraction, s) ← readFraction s
    let (exponent, s) ← readExponent s
    return (⟨negative, whole, fraction, exponent⟩, s)

/-- Reads a token that begins with `c`. -/
def Token.read (c : Char) (s : List Char) : Option (Token × List Char) :=
  if c == '\x7b' then some (.openObject, s)
  else if c == '\x7d' then some (.closeObject, s)
  else if c == '[' then some (.openArray, s)
  else if c == ']' then some (.closeArray, s)
  else if c == ':' then some (.colon, s)
  else if c == ',' then some (.comma, s)
  else if c == '"' then (readText s).map fun r => (.text r.1, r.2)
  else if c == 'n' then
    match s with
    | 'u' :: 'l' :: 'l' :: r => some (.null, r)
    | _ => none
  else if c == 't' then
    match s with
    | 'r' :: 'u' :: 'e' :: r => some (.bool true, r)
    | _ => none
  else if c == 'f' then
    match s with
    | 'a' :: 'l' :: 's' :: 'e' :: r => some (.bool false, r)
    | _ => none
  else (readNumber (c :: s)).map fun r => (.number r.1, r.2)

/-- What follows a text is not longer than what was read. -/
theorem readText_length_le {s : List Char} {r : List TextUnit × List Char}
    (h : readText s = some r) : r.2.length ≤ s.length := by
  fun_induction readText s generalizing r <;> grind

/-- At least one digit is read. -/
theorem readDigits_length_lt {s : List Char} {r : List Char × List Char}
    (h : readDigits s = some r) : r.2.length < s.length := by
  unfold readDigits at h
  split at h
  · cases h
  · next hne =>
    obtain rfl := Option.some.inj h
    have hsum := congrArg List.length (List.takeWhile_append_dropWhile (p := Char.isDigit) (l := s))
    rw [List.length_append] at hsum
    have : (s.takeWhile Char.isDigit).length ≠ 0 := by simpa [List.isEmpty_iff] using hne
    show (s.dropWhile Char.isDigit).length < s.length
    omega

/-- A fraction may be absent, so the rest need not be shorter. -/
theorem readFraction_length_le {s : List Char} {r : List Char × List Char}
    (h : readFraction s = some r) : r.2.length ≤ s.length := by
  unfold readFraction at h
  split at h
  · have := readDigits_length_lt h
    simp only [List.length_cons]
    omega
  · obtain rfl := Option.some.inj h
    exact Nat.le_refl _

/-- An exponent may be absent as well. -/
theorem readExponent_length_le {s : List Char} {r : Option (Bool × List Char) × List Char}
    (h : readExponent s = some r) : r.2.length ≤ s.length := by
  unfold readExponent at h
  split at h
  · split at h
    · obtain ⟨d, hd, rfl⟩ := Option.map_eq_some_iff.mp h
      have hlt := readDigits_length_lt hd
      simp only [List.length_cons]
      split at hlt <;> simp only [List.length_cons] at * <;> omega
    · obtain rfl := Option.some.inj h
      exact Nat.le_refl _
  · obtain rfl := Option.some.inj h
    exact Nat.le_refl _

/-- A number has a digit at least. -/
theorem readNumber_length_lt {s : List Char} {r : NumberText × List Char}
    (h : readNumber s = some r) : r.2.length < s.length := by
  simp only [readNumber, Option.bind_eq_bind, Option.bind_eq_some_iff, Option.pure_def] at h
  obtain ⟨d, hd, h⟩ := h
  have h1 := readDigits_length_lt hd
  split at h
  · cases h
  · simp only [Option.bind_eq_some_iff, Option.some.injEq] at h
    obtain ⟨f, hf, e, he, rfl⟩ := h
    have h2 := readFraction_length_le hf
    have h3 := readExponent_length_le he
    have h4 : d.2.length < s.length := by
      split at h1 <;> simp only [List.length_cons] at * <;> omega
    show e.2.length < s.length
    omega

/-- Every token takes a character at least, so reading tokens comes to an end. -/
theorem Token.read_length_lt {c : Char} {s : List Char} {r : Token × List Char}
    (h : Token.read c s = some r) : r.2.length < (c :: s).length := by
  unfold Token.read at h
  repeat' split at h
  all_goals first
    | cases h; done
    | (obtain rfl := Option.some.inj h; simp only [List.length_cons]; omega)
    | (obtain ⟨d, hd, rfl⟩ := Option.map_eq_some_iff.mp h
       first
         | exact Nat.lt_succ_of_le (readText_length_le hd)
         | exact readNumber_length_lt hd)

/-- All tokens of a text. -/
def tokens (s : List Char) : Option (List Token) :=
  match s with
  | [] => some []
  | c :: s =>
    if isSpace c then tokens s
    else
      match h : Token.read c s with
      | some (t, rest) =>
        have := Token.read_length_lt h
        (tokens rest).map (t :: ·)
      | none => none
termination_by s.length
decreasing_by
  · simp
  · assumption

end SqlAssembly.Json

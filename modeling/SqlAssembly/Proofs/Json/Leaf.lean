import SqlAssembly.Json.Basic
import SqlAssembly.Json.Reader
import SqlAssembly.Proofs.Text.Blank

namespace SqlAssembly.Json

/-!
# Texts and integers in JSON

The leaves of a document as they are written and as they are read: every text comes back from its
escapes, whatever characters it has, and every integer of 64 bits, with sign or without, comes back
from its digits.

* `TextUnit.ofChar`, `readText_rendered` — a text between quotes is read as these units;
* `decodeUnits?_ofChar` — which stand for its characters;
* `NumberText.ofInt`, `readNumber_ofInt` — an integer is read as this numeral;
* `value?_ofInt` — which stands for the integer.
-/

/-! ### Texts -/

/-- A character of a text as it is written between quotes: a control character without an escape of
its own as a code unit. -/
def TextUnit.ofChar (c : Char) : TextUnit :=
  if c.toNat < 0x20 ∧ c ∉ ['\x08', '\x0c', '\n', '\r', '\t'] then .code c.toNat else .char c

/-- A hexadecimal digit is read as its value. -/
theorem hexValue?_hexDigit {n : Nat} (h : n < 16) : Text.hexValue? (hexDigit n) = some n := by
  have hdigits : ∀ m : Fin 16, Text.hexValue? (hexDigit m) = some m.val := by decide
  exact hdigits ⟨n, h⟩

/-- The code unit of a control character is read back. -/
theorem codeUnit?_control {n : Nat} (h : n < 0x20) :
    codeUnit? '0' '0' (hexDigit (n / 16)) (hexDigit (n % 16)) = some n := by
  have hzero : Text.hexValue? '0' = some 0 := by decide
  have hhigh := @hexValue?_hexDigit (n / 16) (by omega)
  have hlow := @hexValue?_hexDigit (n % 16) (by omega)
  have hsum : ((0 * 16 + 0) * 16 + n / 16) * 16 + n % 16 = n := by omega
  simp only [codeUnit?, hzero, hhigh, hlow, Option.bind_eq_bind, Option.bind_some, hsum]
  rfl

/-- A short escape is read as the character that it stands for. -/
theorem readText_escape {e c : Char} (he : e ≠ 'u') (h : shortEscape? e = some c)
    (s : List Char) :
    readText ('\\' :: e :: s) = (readText s).map fun r => (.char c :: r.1, r.2) := by
  rw [readText.eq_4 e s fun _ _ _ _ _ hu => absurd hu he, h]
  cases readText s <;> rfl

/-- A character that may stand for itself is read as itself. -/
theorem readText_plain {c : Char} (hquote : c ≠ '"') (hescape : c ≠ '\\') (h : ¬ c.toNat < 0x20)
    (s : List Char) : readText (c :: s) = (readText s).map fun r => (.char c :: r.1, r.2) := by
  rw [readText.eq_5 c s hquote (fun _ _ _ _ _ hc => absurd hc hescape)
    fun _ _ hc => absurd hc hescape]
  cases readText s with
  | none => rfl
  | some r =>
    dsimp only
    rw [if_neg h]
    rfl

/-- The ways of writing a character: with a short escape, as a code unit or as itself. -/
theorem renderChar_cases (c : Char) :
    (∃ e, e ≠ 'u' ∧ shortEscape? e = some c ∧ renderChar c = ['\\', e] ∧
      TextUnit.ofChar c = .char c) ∨
    (c.toNat < 0x20 ∧ TextUnit.ofChar c = .code c.toNat ∧
      renderChar c =
        ['\\', 'u', '0', '0', hexDigit (c.toNat / 16), hexDigit (c.toNat % 16)]) ∨
    (c ≠ '"' ∧ c ≠ '\\' ∧ ¬ c.toNat < 0x20 ∧ renderChar c = [c] ∧
      TextUnit.ofChar c = .char c) := by
  by_cases hquote : c = '"'
  · subst hquote
    exact .inl ⟨'"', by decide, by decide, by decide, by decide⟩
  by_cases hescape : c = '\\'
  · subst hescape
    exact .inl ⟨'\\', by decide, by decide, by decide, by decide⟩
  by_cases hshort : c ∈ ['\x08', '\x0c', '\n', '\r', '\t']
  · simp only [List.mem_cons, List.not_mem_nil, or_false] at hshort
    obtain rfl | rfl | rfl | rfl | rfl := hshort
    · exact .inl ⟨'b', by decide, by decide, by decide, by decide⟩
    · exact .inl ⟨'f', by decide, by decide, by decide, by decide⟩
    · exact .inl ⟨'n', by decide, by decide, by decide, by decide⟩
    · exact .inl ⟨'r', by decide, by decide, by decide, by decide⟩
    · exact .inl ⟨'t', by decide, by decide, by decide, by decide⟩
  -- with the short escapes left out, only the control characters are escaped
  have hrender : renderChar c =
      if c.toNat < 0x20 then
        ['\\', 'u', '0', '0', hexDigit (c.toNat / 16), hexDigit (c.toNat % 16)]
      else [c] := by
    simp only [List.mem_cons, List.not_mem_nil, or_false, not_or] at hshort
    simp [renderChar, hquote, hescape, hshort]
  by_cases hcontrol : c.toNat < 0x20
  · rw [if_pos hcontrol] at hrender
    exact .inr (.inl ⟨hcontrol, if_pos ⟨hcontrol, hshort⟩, hrender⟩)
  · rw [if_neg hcontrol] at hrender
    exact .inr (.inr ⟨hquote, hescape, hcontrol, hrender, if_neg fun h => hcontrol h.1⟩)

/-- A character is read back however it is written. -/
theorem readText_renderChar (c : Char) (s : List Char) :
    readText (renderChar c ++ s) = (readText s).map fun r => (TextUnit.ofChar c :: r.1, r.2) := by
  obtain ⟨e, he, hshort, hrender, hunit⟩ | ⟨hcontrol, hunit, hrender⟩ |
    ⟨hquote, hescape, hcontrol, hrender, hunit⟩ := renderChar_cases c
  · rw [hrender, hunit]
    exact readText_escape he hshort s
  · rw [hrender, hunit]
    show readText ('\\' :: 'u' :: '0' :: '0' :: _ :: _ :: s) = _
    rw [readText, codeUnit?_control hcontrol]
    cases readText s <;> rfl
  · rw [hrender, hunit]
    exact readText_plain hquote hescape hcontrol s

/-- A text between quotes is read as its characters, up to the closing quote. -/
theorem readText_rendered (s rest : List Char) :
    readText (s.flatMap renderChar ++ '"' :: rest) = some (s.map TextUnit.ofChar, rest) := by
  induction s with
  | nil => rfl
  | cons c s ih =>
    rw [List.flatMap_cons, List.append_assoc, readText_renderChar, ih]
    rfl

/-- A code unit of a control character is no half of a pair, so it stands for itself. -/
theorem decodeUnits?_code {n : Nat} (h : n < 0x20) (units : List TextUnit) :
    decodeUnits? (.code n :: units) = (decodeUnits? units).map (Char.ofNat n :: ·) := by
  have hhigh : ¬ (0xD800 ≤ n ∧ n < 0xDC00) := by omega
  have hlow : ¬ (0xDC00 ≤ n ∧ n < 0xE000) := by omega
  have hpair : ¬ (0xD800 ≤ n ∧ n < 0xE000) := by omega
  cases units with
  | nil => rw [decodeUnits?.eq_4 _ _ (fun _ _ h => by cases h), if_neg hpair]
  | cons unit units =>
    cases unit with
    | char c => rw [decodeUnits?.eq_4 _ _ (fun _ _ h => by cases h), if_neg hpair]
    | code low => rw [decodeUnits?.eq_3, if_neg hhigh, if_neg hlow]

/-- The units of a text stand for its characters. -/
theorem decodeUnits?_ofChar (s : List Char) : decodeUnits? (s.map TextUnit.ofChar) = some s := by
  induction s with
  | nil => rfl
  | cons c s ih =>
    rw [List.map_cons, TextUnit.ofChar]
    split
    · next hcontrol => rw [decodeUnits?_code hcontrol.1, ih, Char.ofNat_toNat, Option.map_some]
    · rw [decodeUnits?, ih, Option.map_some]

/-- The units of a text stand for that text. -/
theorem text?_ofChar (s : String) : text? (s.toList.map TextUnit.ofChar) = some s := by
  rw [text?, decodeUnits?_ofChar, Option.map_some, String.ofList_toList]

/-! ### Integers -/

/-- What stands behind a number and does not belong to it. -/
def Delimited (s : List Char) : Prop :=
  ∀ c ∈ s.head?, c.isDigit = false ∧ c ≠ '.' ∧ c ≠ 'e' ∧ c ≠ 'E'

/-- The numeral of an integer. -/
def NumberText.ofInt (n : Int) : NumberText :=
  ⟨n < 0, Nat.toDigits 10 n.natAbs, [], none⟩

/-- An integer is written as its digits, with a minus in front if it is negative. -/
theorem toList_toString (n : Int) :
    (toString n).toList = (if n < 0 then ['-'] else []) ++ Nat.toDigits 10 n.natAbs := by
  rw [Int.toString_eq_repr, Int.repr_eq_if]
  by_cases h : n < 0
  · have hnat : (-n).toNat = n.natAbs := by omega
    rw [if_pos h, if_neg (by omega), String.toList_append, Nat.toList_repr, hnat]
    rfl
  · have hnat : n.toNat = n.natAbs := by omega
    rw [if_neg h, if_pos (by omega), Nat.toList_repr, hnat, List.nil_append]

/-- The digits of a number are digits. -/
theorem isDigit_of_mem_toDigits {n : Nat} {c : Char} (h : c ∈ Nat.toDigits 10 n) :
    c.isDigit = true :=
  Nat.isDigit_of_mem_toDigits (by decide) (by decide) h

/-- There is one digit at least. -/
theorem exists_toDigits (n : Nat) : ∃ d ds, Nat.toDigits 10 n = d :: ds ∧ d.isDigit = true := by
  obtain ⟨d, ds, hds⟩ := List.exists_cons_of_ne_nil (@Nat.toDigits_ne_nil n 10)
  exact ⟨d, ds, hds, isDigit_of_mem_toDigits (hds ▸ List.mem_cons_self)⟩

/-- Only zero begins with a zero. -/
theorem head?_toDigits {n : Nat} (h : 0 < n) : (Nat.toDigits 10 n).head? ≠ some '0' := by
  induction n using Nat.strongRecOn with
  | ind n ih =>
    by_cases hlt : n < 10
    · have hdigits : ∀ m : Fin 10, 0 < m.val → (Nat.toDigits 10 m).head? ≠ some '0' := by decide
      exact hdigits ⟨n, hlt⟩ h
    · obtain ⟨d, ds, hds, -⟩ := exists_toDigits (n / 10)
      have hrest := ih (n / 10) (by omega) (by omega)
      rw [hds] at hrest
      rw [Nat.toDigits_of_base_le (by decide) (by omega), hds]
      exact hrest

/-- Digits are read up to where no digit follows. -/
theorem readDigits_append {digits rest : List Char} (hne : digits ≠ [])
    (h : ∀ c ∈ digits, c.isDigit = true) (hrest : Delimited rest) :
    readDigits (digits ++ rest) = some (digits, rest) := by
  obtain ⟨htake, hdrop⟩ := Text.takeWhile_dropWhile_append h fun c hc => (hrest c hc).1
  rw [readDigits, htake, hdrop, if_neg (by simpa using hne)]

/-- Behind the digits of an integer there is neither a fraction nor an exponent. -/
theorem readFraction_delimited {rest : List Char} (h : Delimited rest) :
    readFraction rest = some ([], rest) ∧ readExponent rest = some (none, rest) := by
  cases rest with
  | nil => exact ⟨rfl, rfl⟩
  | cons c rest =>
    obtain ⟨-, hpoint, hlower, hupper⟩ := h c rfl
    constructor
    · unfold readFraction
      split
      · next heq => exact absurd (List.cons.inj heq).1 hpoint
      · rfl
    · simp [readExponent, hlower, hupper]

/-- The digits of a natural number are read, and nothing else. -/
theorem readDigits_toDigits (n : Nat) {rest : List Char} (h : Delimited rest) :
    readDigits (Nat.toDigits 10 n ++ rest) = some (Nat.toDigits 10 n, rest) ∧
    ¬ (1 < (Nat.toDigits 10 n).length ∧ (Nat.toDigits 10 n).head? = some '0') := by
  refine ⟨readDigits_append Nat.toDigits_ne_nil (fun c => isDigit_of_mem_toDigits) h, ?_⟩
  rintro ⟨hlength, hhead⟩
  obtain rfl | hpos := Nat.eq_zero_or_pos n
  · exact absurd hlength (by decide)
  · exact head?_toDigits hpos hhead

/-- The digits of a number are read, with a minus or without. -/
theorem readNumber_ofInt (n : Int) {rest : List Char} (h : Delimited rest) :
    readNumber ((toString n).toList ++ rest) = some (.ofInt n, rest) := by
  obtain ⟨hread, hzero⟩ := readDigits_toDigits n.natAbs h
  obtain ⟨hfraction, hexponent⟩ := readFraction_delimited h
  rw [toList_toString, NumberText.ofInt]
  by_cases hn : n < 0
  · rw [if_pos hn, decide_eq_true hn, List.append_assoc, List.singleton_append, readNumber.eq_1]
    simp [hread, hzero, hfraction, hexponent]
  · obtain ⟨d, ds, hds, hdigit⟩ := exists_toDigits n.natAbs
    have hd : d ≠ '-' := by
      rintro rfl
      exact absurd hdigit (by decide)
    have hsign : ∀ r, Nat.toDigits 10 n.natAbs ++ rest = '-' :: r → False := by
      intro r hr
      rw [hds] at hr
      exact hd (List.cons.inj hr).1
    rw [if_neg hn, decide_eq_false hn, List.nil_append, readNumber.eq_2 _ hsign]
    simp [hread, hzero, hfraction, hexponent]

/-! ### What numerals stand for -/

/-- Further digits make a number no smaller. -/
theorem le_ofDigitChars (s : List Char) (n : Nat) : n ≤ Nat.ofDigitChars 10 s n := by
  induction s generalizing n with
  | nil => exact Nat.le_refl n
  | cons c s ih =>
    have hrest := ih (10 * n + (c.toNat - '0'.toNat))
    show n ≤ Nat.ofDigitChars 10 s (10 * n + (c.toNat - '0'.toNat))
    omega

/-- Digits are read as an integer as long as that is below `2 ^ 64`. -/
theorem readWhole_eq {s : List Char} {n : Nat} (h : Nat.ofDigitChars 10 s n < UInt64.size) :
    readWhole n s = (Nat.ofDigitChars 10 s n, 0) := by
  induction s generalizing n with
  | nil => rfl
  | cons c s ih =>
    have hstep : n * 10 + digitValue c = 10 * n + (c.toNat - '0'.toNat) := by
      rw [digitValue]
      omega
    have hle := le_ofDigitChars s (10 * n + (c.toNat - '0'.toNat))
    have hrest : Nat.ofDigitChars 10 s (10 * n + (c.toNat - '0'.toNat)) < UInt64.size := h
    rw [readWhole, hstep, if_pos (Nat.lt_of_le_of_lt hle hrest), ih hrest]
    rfl

/-- The numeral of an integer stands for it, from `-2 ^ 63` up to `2 ^ 64 - 1`. -/
theorem value?_ofInt {n : Int} (hlow : Int64.minValue.toInt ≤ n) (hhigh : n < UInt64.size) :
    (NumberText.ofInt n).value? = some (.int n) := by
  have hmin : Int64.minValue.toInt = -9223372036854775808 := by decide
  have hsize : UInt64.size = 18446744073709551616 := rfl
  have hdigits : Nat.ofDigitChars 10 (Nat.toDigits 10 n.natAbs) 0 = n.natAbs :=
    Nat.ofDigitChars_ten_toDigits
  -- no digit overflows, for the whole number fits into 64 bits
  have hwhole : readWhole 0 (Nat.toDigits 10 n.natAbs) = (n.natAbs, 0) := by
    rw [readWhole_eq (by rw [hdigits]; omega), hdigits]
  rw [NumberText.value?, NumberText.ofInt]
  dsimp only
  rw [hwhole, if_pos ⟨rfl, rfl, rfl⟩]
  -- a negative number may go down to the lower bound, another up to the upper one
  by_cases hn : n < 0
  · have hexact : ¬ (n.natAbs = 0 ∨ (-n.natAbs : Int) < Int64.minValue.toInt) := by omega
    have habs : (-n.natAbs : Int) = n := by omega
    rw [decide_eq_true hn, if_neg (by decide), if_neg hexact, habs]
  · have habs : (n.natAbs : Int) = n := by omega
    rw [decide_eq_false hn, if_pos (by decide), habs]

end SqlAssembly.Json

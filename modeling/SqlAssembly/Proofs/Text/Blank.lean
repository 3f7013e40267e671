import Mathlib.Data.List.TakeWhile
import SqlAssembly.Text.Blank
import SqlAssembly.Text.WordChar

namespace SqlAssembly.Text

/-!
# Blanks at the ends

What is skipped and trimmed: the blanks in front of a text and those behind it, and nothing of a
text that neither begins nor ends with one.

* `isWordChar_of_isBlank` — blanks separate words;
* `skipBlanks_append`, `trimEnd_append`, `trim_append` — blanks at an end make no difference;
* `exists_trimEnd`, `exists_trim` — trimming takes away nothing else;
* `Ends`, `Trimmed` — texts that do not end with a blank, or do not begin with one either;
* `Trimmed.trim_padded` — such a text is what trimming leaves of it between blanks.
-/

/-- Characters of a class in front of one that is not are the longest run of that class. -/
theorem takeWhile_dropWhile_append {p : Char → Bool} {s rest : List Char}
    (hs : ∀ c ∈ s, p c = true) (hrest : ∀ c ∈ rest.head?, p c = false) :
    (s ++ rest).takeWhile p = s ∧ (s ++ rest).dropWhile p = rest := by
  rw [List.takeWhile_append_of_pos hs, List.dropWhile_append_of_pos hs]
  cases rest with
  | nil => exact ⟨List.append_nil s, rfl⟩
  | cons c rest =>
    have hc : ¬ p c = true := by simp [hrest c rfl]
    rw [List.takeWhile_cons_of_neg hc, List.dropWhile_cons_of_neg hc, List.append_nil]
    exact ⟨rfl, rfl⟩

/-! ### Blanks and words -/

/-- A code point is not in two tables whose ranges are apart. -/
theorem inRanges_eq_false {table other : List (Nat × Nat)}
    (h : (table.all fun r => other.all fun t => Nat.blt r.2 t.1 || Nat.blt t.2 r.1) = true)
    {n : Nat} (hn : inRanges other n = true) : inRanges table n = false := by
  obtain ⟨t, ht, hmem⟩ := List.any_eq_true.mp hn
  refine List.any_eq_false.mpr fun r hr hmem' => ?_
  -- two ranges that are apart have no code point in common
  have hapart := List.all_eq_true.mp (List.all_eq_true.mp h r hr) t ht
  simp only [Nat.blt_eq, Bool.or_eq_true, Bool.and_eq_true, decide_eq_true_eq] at hapart hmem hmem'
  omega

/-- The blanks beyond ASCII, as ranges of code points. -/
def blankRanges : List (Nat × Nat) :=
  [(0x85, 0x85), (0xA0, 0xA0), (0x1680, 0x1680), (0x2000, 0x200A), (0x2028, 0x2029),
    (0x202F, 0x202F), (0x205F, 0x205F), (0x3000, 0x3000)]

/-- A blank is one of the six in ASCII, or it lies in one of the ranges beyond. -/
theorem isBlank_cases {c : Char} (h : isBlank c = true) :
    c ∈ ['\t', '\n', '\x0B', '\x0C', '\r', ' '] ∨
      0x80 ≤ c.toNat ∧ inRanges blankRanges c.toNat = true := by
  simp only [isBlank, Bool.or_eq_true, Bool.and_eq_true, decide_eq_true_eq, beq_iff_eq] at h
  rcases Nat.lt_or_ge c.toNat 0x80 with hascii | hbeyond
  · have hcode : c.toNat ∈ [9, 10, 11, 12, 13, 32] := by
      simp only [List.mem_cons, List.not_mem_nil, or_false]
      omega
    exact .inl (Char.ofNat_toNat c ▸ List.mem_map_of_mem (f := Char.ofNat) hcode)
  · refine .inr ⟨hbeyond, ?_⟩
    simp only [inRanges, blankRanges, List.any_cons, List.any_nil, Bool.or_false, Bool.or_eq_true,
      Bool.and_eq_true, decide_eq_true_eq]
    omega

/-- No blank is a character of words. -/
theorem isWordChar_of_isBlank {c : Char} (h : isBlank c = true) : isWordChar c = false := by
  rcases isBlank_cases h with hascii | ⟨hbeyond, hrange⟩
  · have hall : (['\t', '\n', '\x0B', '\x0C', '\r', ' '].all fun c => !isWordChar c) = true := by
      decide
    simpa using List.all_eq_true.mp hall c hascii
  -- the two tables are compared range by range, as there are too many code points
  · rw [isWordChar, if_neg (Nat.not_lt.mpr hbeyond)]
    exact inRanges_eq_false (by decide +kernel) hrange

/-! ### Blanks that are skipped and trimmed -/

/-- A character that is no blank is not skipped. -/
theorem skipBlanks_cons {c : Char} (h : isBlank c = false) (s : List Char) :
    skipBlanks (c :: s) = c :: s := by
  simp [skipBlanks, h]

/-- A text with a character that is no blank is not blank. -/
theorem allBlank_eq_false {c : Char} (h : isBlank c = false) {s : List Char} (hc : c ∈ s) :
    allBlank s = false := by
  refine Bool.eq_false_iff.mpr fun hblank => ?_
  have := List.all_eq_true.mp hblank c hc
  rw [h] at this
  cases this

/-- Blanks in front make no difference to what is left. -/
theorem skipBlanks_append {blanks : List Char} (h : allBlank blanks = true) (s : List Char) :
    skipBlanks (blanks ++ s) = skipBlanks s :=
  List.dropWhile_append_of_pos (List.all_eq_true.mp h)

/-- Blanks behind a text are trimmed with its own. -/
theorem trimEnd_append {blanks : List Char} (h : allBlank blanks = true) (s : List Char) :
    trimEnd (s ++ blanks) = trimEnd s := by
  have hreverse : ∀ c ∈ blanks.reverse, isBlank c = true := fun c hc =>
    List.all_eq_true.mp h c (List.mem_reverse.mp hc)
  rw [trimEnd, List.reverse_append, List.dropWhile_append_of_pos hreverse]
  rfl

/-- Nothing is left exactly of a blank text. -/
theorem skipBlanks_eq_nil {s : List Char} : skipBlanks s = [] ↔ allBlank s = true := by
  rw [skipBlanks, List.dropWhile_eq_nil_iff, allBlank, List.all_eq_true]

/-- Trimming the end takes away nothing but blanks. -/
theorem exists_trimEnd (s : List Char) :
    ∃ trail, allBlank trail = true ∧ s = trimEnd s ++ trail := by
  refine ⟨(s.reverse.takeWhile isBlank).reverse, ?_, ?_⟩
  · rw [allBlank, List.all_reverse]
    exact List.all_takeWhile
  -- the text from its end is its blanks and the rest
  · have hsplit := List.takeWhile_append_dropWhile (p := isBlank) (l := s.reverse)
    rw [trimEnd, ← List.reverse_append, hsplit, List.reverse_reverse]

/-- Trimming takes blanks away at both ends. -/
theorem exists_trim (s : List Char) : ∃ lead trail, allBlank lead = true ∧
    allBlank trail = true ∧ s = lead ++ (trim s ++ trail) := by
  obtain ⟨trail, htrail, hskip⟩ := exists_trimEnd (skipBlanks s)
  refine ⟨s.takeWhile isBlank, trail, List.all_takeWhile, htrail, ?_⟩
  rw [trim, ← hskip, skipBlanks, List.takeWhile_append_dropWhile]

/-- A text that trims to nothing is blank. -/
theorem allBlank_of_trim {s : List Char} (h : trim s = []) : allBlank s = true := by
  obtain ⟨lead, trail, hlead, htrail, hs⟩ := exists_trim s
  rw [hs, h, List.nil_append, allBlank, List.all_append, Bool.and_eq_true]
  exact ⟨hlead, htrail⟩

/-- Blanks behind a text are trimmed, also if the text itself is blank. -/
theorem trim_append {blanks : List Char} (h : allBlank blanks = true) (s : List Char) :
    trim (s ++ blanks) = trim s := by
  rw [trim, trim, skipBlanks, List.dropWhile_append]
  -- either the text is blank, or its blanks in front are not those behind it
  split
  · next hnil =>
    have hs : skipBlanks s = [] := List.isEmpty_iff.mp hnil
    rw [hs, ← skipBlanks, skipBlanks_eq_nil.mpr h]
  · exact trimEnd_append h _

/-- A text that ends with a character that is no blank has no blanks to trim at its end. -/
theorem trimEnd_concat {c : Char} (h : isBlank c = false) (s : List Char) :
    trimEnd (s ++ [c]) = s ++ [c] := by
  simp [trimEnd, h]

/-! ### Texts without blanks at their ends -/

/-- A text that does not end with a blank, and is not empty. -/
def Ends (s : List Char) : Prop := ∃ c, s.getLast? = some c ∧ isBlank c = false

/-- There is nothing to trim at such an end. -/
theorem Ends.trimEnd_eq {s : List Char} (h : Ends s) : trimEnd s = s := by
  obtain ⟨c, hc, hblank⟩ := h
  obtain ⟨t, rfl⟩ := List.getLast?_eq_some_iff.mp hc
  exact trimEnd_concat hblank t

/-- A text ends as the last part of it does. -/
theorem Ends.append {t : List Char} (h : Ends t) (s : List Char) : Ends (s ++ t) := by
  obtain ⟨c, hc, hblank⟩ := h
  exact ⟨c, by rw [List.getLast?_append, hc]; rfl, hblank⟩

/-- Blanks behind such a text can be told from it. -/
theorem Ends.append_inj {s t blanks blanks' : List Char} (hs : Ends s) (ht : Ends t)
    (hb : allBlank blanks = true) (hb' : allBlank blanks' = true)
    (h : s ++ blanks = t ++ blanks') : s = t := by
  have htrim := congrArg trimEnd h
  rwa [trimEnd_append hb, trimEnd_append hb', hs.trimEnd_eq, ht.trimEnd_eq] at htrim

/-- A text that neither begins nor ends with a blank, and is not empty. -/
structure Trimmed (s : List Char) : Prop where
  head : ∃ c, s.head? = some c ∧ isBlank c = false
  last : ∃ c, s.getLast? = some c ∧ isBlank c = false

/-- A trimmed text has a character, since it has a first one. -/
theorem Trimmed.ne_nil {s : List Char} (h : Trimmed s) : s ≠ [] := by
  rintro rfl
  obtain ⟨c, hc, -⟩ := h.head
  cases hc

/-- No blank is in front of a trimmed text. -/
theorem Trimmed.skipBlanks_eq {s : List Char} (h : Trimmed s) : skipBlanks s = s := by
  obtain ⟨c, hc, hblank⟩ := h.head
  obtain ⟨t, rfl⟩ := List.head?_eq_some_iff.mp hc
  exact skipBlanks_cons hblank t

/-- Trimming changes nothing about a trimmed text. -/
theorem Trimmed.trim_eq {s : List Char} (h : Trimmed s) : trim s = s := by
  rw [trim, h.skipBlanks_eq]
  exact Ends.trimEnd_eq h.last

/-- Blanks around a trimmed text are trimmed. -/
theorem Trimmed.trim_padded {s before behind : List Char} (h : Trimmed s)
    (hbefore : allBlank before = true) (hbehind : allBlank behind = true) :
    trim (before ++ (s ++ behind)) = s := by
  rw [trim, skipBlanks_append hbefore, ← trim, trim_append hbehind, h.trim_eq]

/-- Whatever stands between two trimmed texts, it is at neither end. -/
theorem Trimmed.between {s t : List Char} (hs : Trimmed s) (ht : Trimmed t) (u : List Char) :
    Trimmed (s ++ u ++ t) := by
  obtain ⟨c, hc, hblank⟩ := hs.head
  exact ⟨⟨c, by simp [hc], hblank⟩, Ends.append ht.last _⟩

theorem Trimmed.append {s t : List Char} (hs : Trimmed s) (ht : Trimmed t) : Trimmed (s ++ t) := by
  simpa using hs.between ht []

/-- Joined texts have the ends of the first and of the last of them. -/
theorem Trimmed.intercalate {sep : List Char} {texts : List (List Char)} (hne : texts ≠ [])
    (h : ∀ s ∈ texts, Trimmed s) : Trimmed (sep.intercalate texts) := by
  induction texts with
  | nil => exact absurd rfl hne
  | cons s texts ih =>
    rw [List.forall_mem_cons] at h
    -- the last of the texts has no separator behind it
    cases texts with
    | nil => simpa using h.1
    | cons t texts =>
      rw [List.intercalate_cons_cons]
      exact h.1.between (ih (List.cons_ne_nil t texts) h.2) sep

end SqlAssembly.Text

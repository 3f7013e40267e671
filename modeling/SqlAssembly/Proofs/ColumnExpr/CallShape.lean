import SqlAssembly.Proofs.ColumnExpr.Arguments

namespace SqlAssembly

/-!
# Reading calls back

A call is closed by the first parenthesis that only an alias follows.  No alias goes across a
parenthesis, so this is the one that was written last, whatever the arguments are.

* `Denial.of?_upper` — a function name is refused in capitals if it is at all;
* `CallShape.read_some` — nothing but a written call is read as one;
* `CallShape.readArguments_call`, `CallShape.read_call` — the parts of a call are read back;
* `CallShape.Sheltered`, `CallShape.read_of_sheltered` — a column is no call;
* `Argument.isLiteral_of_isNumber`, `Argument.isLiteral_of_isString`,
  `Argument.isLiteral_eq_false` — the literals, and what is none.
-/

/-! ### Function names in capitals -/

namespace Grammar

/-- Case folding does not see capitals, in the characters of function names. -/
theorem fold_upper {c : Char} (h : isFunctionTail c = true) :
    Text.fold (Text.upper c) = Text.fold c := by
  have := of_isFunctionTail (p := fun c => Text.fold (Text.upper c) == Text.fold c)
    (by decide) (by decide) (by decide) h
  simpa using this

/-- A capital is its own capital. -/
theorem upper_upper {c : Char} (h : isFunctionTail c = true) :
    Text.upper (Text.upper c) = Text.upper c := by
  have := of_isFunctionTail (p := fun c => Text.upper (Text.upper c) == Text.upper c)
    (by decide) (by decide) (by decide) h
  simpa using this

/-- A name in capitals is its own form in capitals. -/
theorem map_upper_upper {s : List Char} (h : ∀ c ∈ s, isFunctionTail c = true) :
    (s.map Text.upper).map Text.upper = s.map Text.upper := by
  rw [List.map_map]
  exact List.map_congr_left fun c hc => upper_upper (h c hc)

end Grammar

namespace Denial

open Grammar

/-- A function name is one word, and ends no statement. -/
theorem applies_functionName (d : Denial) {s : List Char} (hne : s ≠ [])
    (h : ∀ c ∈ s, isFunctionTail c = true) :
    d.applies s = d.keyword?.any fun keyword => Text.isKeyword keyword s := by
  unfold applies
  cases d.keyword? with
  | none =>
    obtain ⟨c, hc, hblank⟩ := (trimmed_of_forall hne h).last
    obtain ⟨init, rfl⟩ := List.getLast?_eq_some_iff.mp hc
    dsimp only
    rw [Text.trimEnd_concat hblank, List.getLast?_concat]
    -- the last character is one of function names, so it is no semicolon
    have hsemicolon : c ≠ ';' := by
      rintro rfl
      exact absurd (h ';' (by simp)) (by decide)
    simpa using hsemicolon
  | some keyword =>
    dsimp only
    rw [Text.runs_eq_singleton hne fun c hc => isWordChar_of_isFunctionTail (h c hc)]
    simp

/-- A function name is refused in capitals if and only if it is refused. -/
theorem of?_upper {s : List Char} (hne : s ≠ []) (h : ∀ c ∈ s, isFunctionTail c = true) :
    of? (s.map Text.upper) = of? s := by
  have hupper : ∀ c ∈ s.map Text.upper, isFunctionTail c = true := by
    intro c hc
    obtain ⟨d, hd, rfl⟩ := List.mem_map.mp hc
    exact isFunctionTail_upper (h d hd)
  have hfold : (s.map Text.upper).map Text.fold = s.map Text.fold := by
    rw [List.map_map]
    exact List.map_congr_left fun c hc => fold_upper (h c hc)
  have happlies : (fun d : Denial => d.applies (s.map Text.upper)) = fun d => d.applies s := by
    funext d
    rw [applies_functionName d (by simpa using hne) hupper, applies_functionName d hne h]
    simp only [Text.isKeyword, hfold]
  rw [of?, of?, happlies]

end Denial

/-! ### Calls -/

namespace CallShape

open Grammar

/-- The arguments go up to a closing parenthesis that the alias follows. -/
theorem readArguments_some {s : List Char} {r : List Char × Option Segment}
    (h : readArguments s = some r) :
    ∃ rest, s = r.1 ++ ')' :: rest ∧ Segment.readAlias rest = some r.2 := by
  induction s generalizing r with
  | nil => cases h
  | cons c s ih =>
    unfold readArguments at h
    split at h
    · next alias? halias =>
      obtain rfl := Option.some.inj h
      split at halias
      · next hc => exact ⟨s, by rw [hc]; rfl, halias⟩
      · cases halias
    · obtain ⟨r', hr', rfl⟩ := Option.map_eq_some_iff.mp h
      obtain ⟨rest, hs, hrest⟩ := ih hr'
      exact ⟨rest, by rw [hs]; rfl, hrest⟩

/-- What is read as a call is written as one: a name, the arguments between parentheses and an
alias, with blanks in front of each of them and at the end. -/
theorem read_some {s : List Char} {call : CallShape} (h : read s = some call) :
    IsFunctionName call.function ∧ ∃ lead gap arguments tail trail,
      Text.allBlank lead = true ∧ Text.allBlank gap = true ∧
      Segment.AliasText call.alias? tail ∧ Text.allBlank trail = true ∧
      call.arguments = Text.trim arguments ∧
      s = lead ++ (call.function ++ (gap ++ '(' :: (arguments ++ ')' :: (tail ++ trail)))) := by
  unfold read at h
  split at h
  · cases h
  next c t hskip =>
  split at h
  · next hc =>
    split at h
    · next rest hrest =>
      obtain ⟨r, hr, rfl⟩ := Option.map_eq_some_iff.mp h
      obtain ⟨behind, rfl, halias⟩ := readArguments_some hr
      obtain ⟨tail, trail, htail, htrail, rfl⟩ := Segment.readAlias_some halias
      -- what was skipped and what was taken make up the text again
      refine ⟨⟨c, _, rfl, hc, fun d hd => List.mem_takeWhile_imp hd⟩,
        s.takeWhile Text.isBlank, (t.dropWhile isNameTail).takeWhile Text.isBlank, r.1, tail, trail,
        List.all_takeWhile, List.all_takeWhile, htail, htrail, rfl, ?_⟩
      rw [← hrest, Text.skipBlanks, List.takeWhile_append_dropWhile, List.cons_append,
        List.takeWhile_append_dropWhile, ← hskip, Text.skipBlanks, List.takeWhile_append_dropWhile]
    · cases h
  · cases h

/-- The name that is read is the name of a function. -/
theorem isFunctionName_of_read {s : List Char} {call : CallShape} (h : read s = some call) :
    IsFunctionName call.function := (read_some h).1

/-- The alias that is read is a name as it may be written. -/
theorem wellFormed_of_read {s : List Char} {call : CallShape} (h : read s = some call) :
    ∀ segment ∈ call.alias?, segment.WellFormed := by
  obtain ⟨-, -, -, -, tail, -, -, -, htail, -⟩ := read_some h
  exact fun segment hsegment => (htail.proper segment hsegment).wellFormed

section

variable {alias? : Option Segment} {tail trail : List Char} (htail : Segment.AliasText alias? tail)
  (htrail : Text.allBlank trail = true)
include htail htrail

/-- The arguments go up to the last parenthesis in front of the alias. -/
theorem readArguments_call (arguments : List Char) :
    readArguments (arguments ++ ')' :: (tail ++ trail)) = some (arguments, alias?) := by
  induction arguments with
  | nil => simp [readArguments, Segment.readAlias_text htail htrail]
  | cons c arguments ih =>
    -- behind a parenthesis inside of the arguments stands the last one, so no alias follows it
    have hopen : (if c = ')' then
        Segment.readAlias (arguments ++ ')' :: (tail ++ trail)) else none) = none := by
      split
      · exact Segment.readAlias_paren htail htrail arguments
      · rfl
    rw [List.cons_append, readArguments, hopen, ih]
    rfl

/-- The parts of a written call are read back. -/
theorem read_call {function lead gap : List Char} (hfunction : IsFunctionName function)
    (hlead : Text.allBlank lead = true) (hgap : Text.allBlank gap = true) (arguments : List Char) :
    read (lead ++ (function ++ (gap ++ '(' :: (arguments ++ ')' :: (tail ++ trail)))))
      = some ⟨function, Text.trim arguments, alias?⟩ := by
  obtain ⟨c, cs, rfl, hc, hcs⟩ := hfunction
  have hhead : Segment.isHead c = true := hc
  have hblank : Text.isBlank c = false :=
    not_isBlank_of_isFunctionTail (by simp [isFunctionTail, hc])
  generalize hbehind : gap ++ '(' :: (arguments ++ ')' :: (tail ++ trail)) = behind
  -- the name goes up to the parenthesis or to the blanks in front of it
  have hstop : ∀ d ∈ behind.head?, isNameTail d = false := by
    rw [← hbehind]
    intro d hd
    cases gap with
    | nil =>
      obtain rfl := Option.some.inj hd
      decide
    | cons b gap =>
      obtain rfl := Option.some.inj hd
      refine Bool.eq_false_iff.mpr fun hname => ?_
      have hb := List.all_eq_true.mp hgap b List.mem_cons_self
      rw [not_isBlank_of_isFunctionTail hname] at hb
      cases hb
  have hname : ∀ d ∈ cs, isNameTail d = true := hcs
  obtain ⟨htake, hdrop⟩ := Text.takeWhile_dropWhile_append hname hstop
  unfold read
  rw [Text.skipBlanks_append hlead, List.cons_append, Text.skipBlanks_cons hblank]
  dsimp only
  rw [if_pos hhead, htake, hdrop, ← hbehind, Text.skipBlanks_append hgap,
    Text.skipBlanks_cons (by decide)]
  exact congrArg (Option.map _) (readArguments_call htail htrail arguments)

end

/-! ### Texts that are no calls -/

/-- A quote stands in front of every opening parenthesis. -/
def Sheltered (s : List Char) : Prop := ∀ front rest, s = front ++ '(' :: rest → '"' ∈ front

namespace Sheltered

/-- A text without an opening parenthesis needs no quote. -/
theorem of_not_mem {s : List Char} (h : '(' ∉ s) : Sheltered s := by
  rintro front rest rfl
  exact absurd (by simp) h

/-- If the parenthesis is in the second text, so is the quote. -/
theorem append {s t : List Char} (hs : Sheltered s) (ht : Sheltered t) : Sheltered (s ++ t) := by
  intro front rest h
  rcases List.append_eq_append_iff.mp h with ⟨u, rfl, hu⟩ | ⟨u, rfl, hu⟩
  · exact List.mem_append_right s (ht u rest hu)
  · cases u with
    | nil => exact absurd (ht [] rest hu.symm) (List.not_mem_nil)
    | cons c u =>
      obtain ⟨rfl, -⟩ := List.cons.inj hu
      exact hs front u rfl

theorem blanks {s : List Char} (h : Text.allBlank s = true) : Sheltered s :=
  of_not_mem fun hmem => absurd (List.all_eq_true.mp h '(' hmem) (by decide)

/-- A name without quotes has no parenthesis, and one with quotes begins with a quote. -/
theorem segment {segment : Segment} (h : segment.Proper) : Sheltered segment.text := by
  cases segment with
  | bare name => exact of_not_mem fun hmem => absurd (h.wellFormed.2 '(' hmem) (by decide)
  | quoted name =>
    intro front rest htext
    cases front with
    | nil => cases (List.cons.inj htext).1
    | cons c front =>
      obtain ⟨rfl, -⟩ := List.cons.inj htext
      exact List.mem_cons_self

/-- Names with points between them are sheltered one by one. -/
theorem path {path : List Segment} (h : ∀ segment ∈ path, segment.Proper) :
    Sheltered (['.'].intercalate (path.map Segment.text)) := by
  induction path with
  | nil => exact of_not_mem List.not_mem_nil
  | cons first path ih =>
    rw [List.forall_mem_cons] at h
    cases path with
    | nil => simpa using segment h.1
    | cons second path =>
      rw [List.map_cons, List.map_cons, List.intercalate_cons_cons]
      exact ((segment h.1).append (of_not_mem (by decide))).append (ih h.2)

/-- An alias is blanks, perhaps a word, and a name. -/
theorem aliasText {alias? : Option Segment} {tail : List Char}
    (h : Segment.AliasText alias? tail) : Sheltered tail := by
  cases h with
  | none => exact of_not_mem List.not_mem_nil
  | plain _ hb hsegment => exact (blanks hb).append (segment hsegment)
  | word _ hb hword _ hgap hsegment =>
    have hletters := of_not_mem fun hmem =>
      absurd (isFunctionTail_of_isKeyword_as hword '(' hmem) (by decide)
    exact (blanks hb).append (hletters.append ((blanks hgap).append (segment hsegment)))

end Sheltered

/-- In front of the parenthesis of a call there is no quote, so such a text is no call. -/
theorem read_of_sheltered {s : List Char} (h : Sheltered s) : read s = none := by
  cases hread : read s with
  | none => rfl
  | some call =>
    obtain ⟨hfunction, lead, gap, arguments, tail, trail, hlead, hgap, -, -, -, rfl⟩ :=
      read_some hread
    have hquote := h (lead ++ (call.function ++ gap)) (arguments ++ ')' :: (tail ++ trail))
      (by simp)
    simp only [List.mem_append] at hquote
    rcases hquote with hmem | hmem | hmem
    · exact absurd (List.all_eq_true.mp hlead '"' hmem) (by decide)
    · exact absurd ((forall_of_isFunctionName hfunction).2 '"' hmem) (by decide)
    · exact absurd (List.all_eq_true.mp hgap '"' hmem) (by decide)

end CallShape

/-! ### Literals -/

namespace Argument

/-- A literal begins with a digit, a minus or an apostrophe. -/
theorem head_of_isLiteral {c : Char} {s : List Char} (h : isLiteral (c :: s) = true) :
    c.isDigit = true ∨ c = '-' ∨ c = '\'' := by
  rw [isLiteral, Bool.or_eq_true] at h
  rcases h with hnumber | hstring
  · obtain ⟨sign, r, hsign, hs, hdigits, -⟩ := Grammar.digits_of_isNumber hnumber
    rcases hsign with rfl | rfl
    · rw [List.nil_append] at hs
      rw [← hs, List.takeWhile_cons] at hdigits
      split at hdigits
      · next hc => exact .inl hc
      · exact absurd rfl hdigits
    · exact .inr (.inl (List.cons.inj hs).1)
  · obtain ⟨content, hcontent⟩ := Option.isSome_iff_exists.mp hstring
    exact .inr (.inr (List.cons.inj (Text.eq_quoted_of_unquote? hcontent)).1)

/-- What begins with a star, a quote or a letter is no literal. -/
theorem isLiteral_eq_false {c : Char} (hc : c = '*' ∨ c = '"' ∨ Grammar.isFunctionHead c = true)
    (s : List Char) : isLiteral (c :: s) = false := by
  refine Bool.eq_false_iff.mpr fun hliteral => ?_
  -- no head of a function name is a digit; this is checked one by one
  have hhead : Grammar.isFunctionHead c = true → c.isDigit = false := by
    intro hname
    have htail : Grammar.isFunctionTail c = true := by simp [Grammar.isFunctionTail, hname]
    have := Grammar.of_isFunctionTail (p := fun c => !Grammar.isFunctionHead c || !c.isDigit)
      (by decide) (by decide) (by decide) htail
    simpa [hname] using this
  rcases head_of_isLiteral hliteral with hdigit | rfl | rfl
  · rcases hc with rfl | rfl | hname
    · cases hdigit
    · cases hdigit
    · rw [hhead hname] at hdigit
      cases hdigit
  · exact absurd hc (by decide)
  · exact absurd hc (by decide)

/-- A minus in front of what does not begin with one is taken off. -/
theorem isNumber_minus {c : Char} (hc : c ≠ '-') (s : List Char) :
    isNumber ('-' :: c :: s) = isNumber (c :: s) := by
  unfold isNumber
  split
  · next heq =>
    obtain rfl := (List.cons.inj heq).2
    split
    · next heq => exact absurd (List.cons.inj heq).1 hc
    · rfl
  · next hminus => exact absurd rfl (hminus (c :: s))

/-- Digits, and perhaps a fraction, are a number. -/
theorem isNumber_of_isDigits {whole rest : List Char} (hwhole : Grammar.IsDigits whole)
    (hrest : rest = [] ∨ ∃ places, Grammar.IsDigits places ∧ rest = '.' :: places) :
    isNumber (whole ++ rest) = true := by
  -- the digits end at the point or at the end of the text
  have hstop : ∀ c ∈ rest.head?, c.isDigit = false := by
    rcases hrest with rfl | ⟨places, -, rfl⟩
    · nofun
    · intro c hc
      obtain rfl := Option.some.inj hc
      decide
  obtain ⟨hne, hdigits⟩ := hwhole
  obtain ⟨htake, hdrop⟩ := Text.takeWhile_dropWhile_append hdigits hstop
  unfold isNumber
  split
  · next heq =>
    -- a digit is no minus
    obtain ⟨d, ds, rfl⟩ := List.exists_cons_of_ne_nil hne
    have hd := hdigits d List.mem_cons_self
    rw [(List.cons.inj heq).1] at hd
    exact absurd hd (by decide)
  · dsimp only
    rw [htake, hdrop]
    rcases hrest with rfl | ⟨places, ⟨hplacesne, hplaces⟩, rfl⟩
    · simp [hne]
    · simp [hne, hplacesne, List.all_eq_true.mpr hplaces]

/-- A number of the grammar is read as a literal. -/
theorem isLiteral_of_isNumber {s : List Char} (h : Grammar.IsNumber s) : isLiteral s = true := by
  obtain ⟨sign, whole, hsign, hwhole, hs⟩ := h
  -- a number without a fraction has nothing behind its digits
  obtain ⟨rest, hrest, rfl⟩ : ∃ rest, (rest = [] ∨
      ∃ places, Grammar.IsDigits places ∧ rest = '.' :: places) ∧ s = sign ++ (whole ++ rest) := by
    rcases hs with rfl | ⟨places, hplaces, rfl⟩
    · exact ⟨[], .inl rfl, by rw [List.append_nil]⟩
    · exact ⟨'.' :: places, .inr ⟨places, hplaces, rfl⟩, rfl⟩
  have hunsigned := isNumber_of_isDigits hwhole hrest
  rcases hsign with rfl | rfl
  · rw [List.nil_append, isLiteral, hunsigned, Bool.true_or]
  · obtain ⟨d, ds, rfl⟩ := List.exists_cons_of_ne_nil hwhole.1
    have hd : d ≠ '-' := by
      rintro rfl
      exact absurd (hwhole.2 '-' List.mem_cons_self) (by decide)
    have hsigned := isNumber_minus hd (ds ++ rest)
    rw [← List.cons_append, hunsigned] at hsigned
    rw [isLiteral, List.singleton_append, hsigned, Bool.true_or]

theorem isLiteral_of_isString {s : List Char} (h : Grammar.IsString s) : isLiteral s = true := by
  obtain ⟨content, rfl⟩ := h
  rw [isLiteral, Text.unquote?_quoted, Option.isSome_some, Bool.or_true]

end Argument

end SqlAssembly

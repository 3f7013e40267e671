import SqlAssembly.Identifier.QualifiedName
import SqlAssembly.Proofs.ColumnExpr.Grammar
import SqlAssembly.Proofs.Identifier.Denial

namespace SqlAssembly

/-!
# Reading segments back

A quoted name is read as the segment that was meant, and a written alias as an alias, at the place
where it was written and nowhere before.

* `Segment.Proper`, `Segment.AliasText` — segments and aliases as they may be written;
* `Segment.read_some`, `Segment.readAlias_some` — nothing else is read, and what was read and what
  is left make up the text;
* `Segment.read_text`, `Segment.readAlias_text` — they are read back;
* `Segment.readAlias_paren` — no alias is read across a closing parenthesis.
-/

/-! ### Doubled quotes and letters -/

namespace Text

/-- Behind a character that is no quote, the rest of a doubled text is doubled itself. -/
theorem eq_doubled_of_doubled_eq {q c : Char} (hc : c ≠ q) {s x y : List Char}
    (h : doubled q s = x ++ c :: y) : ∃ t, y = doubled q t := by
  induction s generalizing x with
  | nil => simp [doubled] at h
  | cons d s ih =>
    by_cases hd : d = q
    · rw [doubled, if_pos hd] at h
      -- the two quotes stand before the character, for it is none
      cases x with
      | nil => exact absurd (List.cons.inj h).1.symm hc
      | cons _ x =>
        have htail := (List.cons.inj h).2
        cases x with
        | nil => exact absurd (List.cons.inj htail).1.symm hc
        | cons _ x => exact ih (List.cons.inj htail).2
    · rw [doubled, if_neg hd] at h
      cases x with
      | nil => exact ⟨s, (List.cons.inj h).2.symm⟩
      | cons _ x => exact ih (List.cons.inj h).2

/-- A text with its quotes doubled has twice as many. -/
theorem count_doubled (q : Char) (s : List Char) : (doubled q s).count q = 2 * s.count q := by
  induction s with
  | nil => rfl
  | cons c s ih =>
    by_cases hc : c = q
    · subst hc
      simp only [doubled, if_true, List.count_cons_self, ih]
      omega
    · simp [doubled, hc, ih]

/-- An even number of quotes is not an odd one. -/
theorem doubled_ne_cons_doubled (q : Char) (s t : List Char) : doubled q s ≠ q :: doubled q t := by
  intro h
  have hcount := congrArg (List.count q) h
  rw [List.count_cons_self, count_doubled, count_doubled] at hcount
  omega

/-- A quoted text ends with a quote. -/
theorem getLast?_quoted (q : Char) (s : List Char) : (quoted q s).getLast? = some q :=
  List.getLast?_concat

/-- Only letters, up to case, fold to capitals. -/
theorem isLetter_of_isUpper_fold {c : Char} (h : (fold c).isUpper = true) :
    isLetter c = true := by
  unfold fold at h
  split at h
  · next hlong => simp [isLetter, hlong]
  split at h
  · next hkelvin => simp [isLetter, hkelvin]
  · have halpha : c.isAlpha = true := by
      refine (Bool.or_eq_true c.isUpper c.isLower).mpr ?_
      unfold Char.toUpper at h
      split at h
      · next hlower =>
        exact .inr ((Bool.and_eq_true _ _).mpr
          ⟨decide_eq_true hlower.1, decide_eq_true hlower.2⟩)
      · exact .inl h
    simp [isLetter, halpha]

end Text

/-! ### Segments -/

namespace Segment

/-- A word, or a name between quotes that is not empty. -/
def WellFormed : Segment → Prop
  | bare name => name ≠ [] ∧ ∀ c ∈ name, isTail c = true
  | quoted name => name ≠ []

/-- The name of a segment is not empty. -/
theorem WellFormed.name_ne_nil {segment : Segment} (h : segment.WellFormed) :
    segment.name ≠ [] := by
  cases segment with
  | bare name => exact h.1
  | quoted name => exact h

/-- A segment as it may be written, and as it is read: a word that does not begin with a digit or a
dollar, or a name between quotes that is not empty. -/
def Proper : Segment → Prop
  | bare name => ∃ c cs, name = c :: cs ∧ isHead c = true ∧ ∀ d ∈ cs, isTail d = true
  | quoted name => name ≠ []

/-- A bare word is no quoted name. -/
theorem quotedName?_of_bare {name : List Char} (h : (bare name).Proper) :
    Identifier.quotedName? name = none := by
  obtain ⟨c, cs, rfl, hc, -⟩ := h
  have hquote : c ≠ '"' := by
    rintro rfl
    exact absurd hc (by decide)
  exact Identifier.quotedName?_cons hquote cs

/-- A segment as it may be written is a word or a quoted name. -/
theorem Proper.wellFormed {segment : Segment} (h : segment.Proper) : segment.WellFormed := by
  cases segment with
  | bare name =>
    obtain ⟨c, cs, rfl, hc, hcs⟩ := h
    exact ⟨List.cons_ne_nil c cs, List.forall_mem_cons.mpr ⟨by simp [isTail, hc], hcs⟩⟩
  | quoted name => exact h

/-- A segment and what follows it make up the text. -/
theorem read_some {s rest : List Char} {segment : Segment} (h : read s = some (segment, rest)) :
    s = segment.text ++ rest ∧ segment.Proper := by
  unfold read at h
  split at h
  · cases h
  next c s =>
  split at h
  · next hc =>
    split at h
    · next d name rest hclose =>
      cases h
      refine ⟨?_, List.cons_ne_nil d name⟩
      rw [hc, Text.eq_doubled_of_closeQuote hclose]
      simp [text, Text.quoted]
    · cases h
  · split at h
    · next hhead =>
      cases h
      exact ⟨by simp [text, List.takeWhile_append_dropWhile],
        c, _, rfl, hhead, fun d hd => List.mem_takeWhile_imp hd⟩
    · cases h

/-- What is read as the last segment of a text is that segment, with blanks behind it. -/
theorem readLast_some {s : List Char} {segment : Segment} (h : readLast s = some segment) :
    segment.Proper ∧ ∃ blanks, Text.allBlank blanks = true ∧ s = segment.text ++ blanks := by
  unfold readLast at h
  split at h
  · next segment' rest hread =>
    split at h
    · next hblank =>
      cases h
      obtain ⟨hs, hproper⟩ := read_some hread
      exact ⟨hproper, rest, hblank, hs⟩
    · cases h
  · cases h

/-! ### Where segments begin and end -/

/-- The name that a segment stands for. -/
def meaning (segment : Segment) : String := String.ofList segment.name

/-- What a segment means is its name. -/
@[simp] theorem toList_meaning (segment : Segment) : segment.meaning.toList = segment.name :=
  String.toList_ofList

/-- No character of a word is a blank. -/
theorem not_isBlank_of_isTail {c : Char} (h : isTail c = true) : Text.isBlank c = false := by
  rw [isTail, Bool.or_eq_true, beq_iff_eq] at h
  rcases h with h | rfl
  · exact Grammar.not_isBlank_of_isFunctionTail h
  · decide

/-- A segment begins with a quote or a letter. -/
theorem Proper.exists_head {segment : Segment} (h : segment.Proper) :
    ∃ c cs, segment.text = c :: cs ∧ (c = '"' ∨ isHead c = true) := by
  cases segment with
  | bare name =>
    obtain ⟨c, cs, rfl, hc, -⟩ := h
    exact ⟨c, cs, rfl, .inr hc⟩
  | quoted name => exact ⟨'"', _, rfl, .inl rfl⟩

/-- A segment does not begin with a blank. -/
theorem not_isBlank_of_head {c : Char} (h : c = '"' ∨ isHead c = true) :
    Text.isBlank c = false := by
  rcases h with rfl | h
  · decide
  · exact not_isBlank_of_isTail (by simp [isTail, h])

/-- In front of a segment there is nothing to skip. -/
theorem Proper.skipBlanks_append {segment : Segment} (h : segment.Proper) (rest : List Char) :
    Text.skipBlanks (segment.text ++ rest) = segment.text ++ rest := by
  obtain ⟨c, cs, hcs, hc⟩ := h.exists_head
  rw [hcs]
  exact Text.skipBlanks_cons (not_isBlank_of_head hc) _

/-- A segment has no blank at its end. -/
theorem WellFormed.ends {segment : Segment} (h : segment.WellFormed) :
    Text.Ends segment.text := by
  cases segment with
  | bare name =>
    obtain ⟨c, hc⟩ := Option.ne_none_iff_exists'.mp (mt List.getLast?_eq_none_iff.mp h.1)
    exact ⟨c, hc, not_isBlank_of_isTail (h.2 c (List.mem_of_getLast? hc))⟩
  | quoted name => exact ⟨'"', Text.getLast?_quoted '"' name, by decide⟩

/-- No segment goes on with the text. -/
def Stops (rest : List Char) : Prop := ∀ c ∈ rest.head?, c ≠ '"' ∧ isTail c = false

/-- A character that belongs to no word stops a segment, unless it is a quote. -/
theorem stops_cons {c : Char} (hquote : c ≠ '"') (htail : isTail c = false) (rest : List Char) :
    Stops (c :: rest) := by
  intro d hd
  obtain rfl := Option.some.inj hd
  exact ⟨hquote, htail⟩

/-- A segment stops at a blank, and at the end of the text. -/
theorem stops_of_isBlank {rest : List Char} (h : ∀ c ∈ rest.head?, Text.isBlank c = true) :
    Stops rest := by
  intro c hc
  have hblank := h c hc
  refine ⟨?_, Bool.eq_false_iff.mpr fun htail => ?_⟩
  · rintro rfl
    exact absurd hblank (by decide)
  · rw [not_isBlank_of_isTail htail] at hblank
    cases hblank

theorem stops_blanks {blanks : List Char} (h : Text.allBlank blanks = true) : Stops blanks :=
  stops_of_isBlank fun c hc => List.all_eq_true.mp h c (List.mem_of_head? hc)

/-- A quoted name is read up to its closing quote. -/
theorem read_quoted {name : List Char} (hname : name ≠ []) (rest : List Char)
    (hrest : rest.head? ≠ some '"') :
    read (Text.quoted '"' name ++ rest) = some (.quoted name, rest) := by
  have hclose := Text.closeQuote_doubled '"' name hrest
  have htext : Text.quoted '"' name ++ rest = '"' :: (Text.doubled '"' name ++ '"' :: rest) := by
    simp [Text.quoted]
  rw [htext, read, if_pos rfl, hclose]
  cases name with
  | nil => exact absurd rfl hname
  | cons c name => rfl

/-- A segment is read up to where it stops. -/
theorem read_text {segment : Segment} (h : segment.Proper) {rest : List Char}
    (hrest : Stops rest) : read (segment.text ++ rest) = some (segment, rest) := by
  cases segment with
  | quoted name => exact read_quoted h rest fun hquote => (hrest _ hquote).1 rfl
  | bare name =>
    obtain ⟨c, cs, rfl, hc, hcs⟩ := h
    have hquote : c ≠ '"' := by
      rintro rfl
      exact absurd hc (by decide)
    obtain ⟨htake, hdrop⟩ := Text.takeWhile_dropWhile_append hcs fun d hd => (hrest d hd).2
    rw [text, List.cons_append, read, if_neg hquote, if_pos hc, htake, hdrop]

/-- The last segment of a text is read back, whatever blanks are behind it. -/
theorem readLast_text {segment : Segment} (h : segment.Proper) {blanks : List Char}
    (hb : Text.allBlank blanks = true) : readLast (segment.text ++ blanks) = some segment := by
  rw [readLast, read_text h (stops_blanks hb)]
  exact if_pos hb

/-! ### Aliases -/

/-- A word may begin with any letter. -/
theorem isHead_of_isLetter {c : Char} (h : Text.isLetter c = true) : isHead c = true := by
  simp [isHead, h]

theorem not_isBlank_of_isLetter {c : Char} (h : Text.isLetter c = true) :
    Text.isBlank c = false :=
  not_isBlank_of_head (.inr (isHead_of_isLetter h))

/-- The word AS has two letters. -/
theorem exists_of_isKeyword_as {word : List Char} (h : Text.isKeyword "AS" word = true) :
    ∃ a s, word = [a, s] ∧ Text.isLetter a = true ∧ Text.isLetter s = true := by
  have hfold : word.map Text.fold = ['A', 'S'] := by rwa [Text.isKeyword, beq_iff_eq] at h
  rw [List.map_eq_cons_iff] at hfold
  obtain ⟨a, rest, rfl, ha, hrest⟩ := hfold
  obtain ⟨s, hs, hfold⟩ := List.map_eq_singleton_iff.mp hrest
  refine ⟨a, s, by rw [hs], Text.isLetter_of_isUpper_fold ?_, Text.isLetter_of_isUpper_fold ?_⟩
  · rw [ha]
    decide
  · rw [hfold]
    decide

/-- In front of what follows it stands the word AS, and a blank. -/
theorem afterAs_eq_some {s rest : List Char} (h : afterAs s = some rest) :
    ∃ a b c tail, s = a :: b :: c :: tail ∧ Text.isKeyword "AS" [a, b] = true ∧
      Text.isBlank c = true ∧ rest = Text.skipBlanks tail := by
  unfold afterAs at h
  split at h
  · next a b c tail =>
    split at h
    · next hword =>
      rw [Bool.and_eq_true] at hword
      exact ⟨a, b, c, tail, rfl, hword.1, hword.2, (Option.some.inj h).symm⟩
    · cases h
  · cases h

/-- How an alias may be written, if there is one: behind blanks, and perhaps behind the word AS. -/
inductive AliasText : Option Segment → List Char → Prop
  | none : AliasText none []
  | plain {blanks : List Char} {segment : Segment} : blanks ≠ [] → Text.allBlank blanks = true →
    segment.Proper → AliasText (some segment) (blanks ++ segment.text)
  | word {blanks word gap : List Char} {segment : Segment} : blanks ≠ [] →
    Text.allBlank blanks = true → Text.isKeyword "AS" word = true → gap ≠ [] →
    Text.allBlank gap = true → segment.Proper →
    AliasText (some segment) (blanks ++ (word ++ (gap ++ segment.text)))

/-- What is read as an alias is written as one, in front of blanks. -/
theorem readAlias_some {s : List Char} {alias? : Option Segment} (h : readAlias s = some alias?) :
    ∃ tail blanks, AliasText alias? tail ∧ Text.allBlank blanks = true ∧ s = tail ++ blanks := by
  unfold readAlias at h
  split at h
  · next hblank =>
    obtain rfl := Option.some.inj h
    exact ⟨[], s, .none, hblank, rfl⟩
  split at h
  · next hblank => exact absurd rfl hblank
  next c rest _ =>
  split at h
  · next hc =>
    have hsplit := List.takeWhile_append_dropWhile (p := Text.isBlank) (l := rest)
    -- the blanks in front of the alias, the first of which was looked at already
    have hblanks : Text.allBlank (c :: rest.takeWhile Text.isBlank) = true := by
      rw [Text.allBlank, List.all_cons, hc]
      exact List.all_takeWhile
    dsimp only at h
    split at h
    · next segment has =>
      obtain rfl := Option.some.inj h
      obtain ⟨text, hafter, hlast⟩ := Option.bind_eq_some_iff.mp has
      obtain ⟨hproper, blanks, hb, rfl⟩ := readLast_some hlast
      obtain ⟨a, b, g, tail, hword, hkeyword, hg, htail⟩ := afterAs_eq_some hafter
      have hgap := List.takeWhile_append_dropWhile (p := Text.isBlank) (l := tail)
      rw [← Text.skipBlanks, ← htail] at hgap
      have hgapBlank : Text.allBlank (g :: tail.takeWhile Text.isBlank) = true := by
        rw [Text.allBlank, List.all_cons, hg]
        exact List.all_takeWhile
      refine ⟨_, blanks, .word (List.cons_ne_nil c _) hblanks hkeyword (List.cons_ne_nil g _)
        hgapBlank hproper, hb, ?_⟩
      rw [← Text.skipBlanks, hword, ← hgap] at hsplit
      rw [← congrArg (c :: ·) hsplit]
      simp
    -- there is no word AS with a name behind it, so the text is a name by itself
    · obtain ⟨segment, hlast, rfl⟩ := Option.map_eq_some_iff.mp h
      obtain ⟨hproper, blanks, hb, htext⟩ := readLast_some hlast
      refine ⟨_, blanks, .plain (List.cons_ne_nil c _) hblanks hproper, hb, ?_⟩
      rw [List.append_assoc, ← htext, List.cons_append, Text.skipBlanks, hsplit]
  · cases h

namespace AliasText

variable {alias? : Option Segment} {tail : List Char}

/-- The segment of an alias is one that may be written. -/
theorem proper (h : AliasText alias? tail) : ∀ segment ∈ alias?, segment.Proper := by
  intro segment hsegment
  cases h with
  | none => cases hsegment
  | plain _ _ hproper => rwa [← Option.some.inj hsegment]
  | word _ _ _ _ _ hproper => rwa [← Option.some.inj hsegment]

/-- An alias ends with its segment, and a blank stands in front of that, and no parenthesis. -/
theorem eq_nil_or (h : AliasText alias? tail) : tail = [] ∨
    ∃ front b, ∃ segment : Segment, segment.Proper ∧ Text.isBlank b = true ∧ ')' ∉ front ∧
      tail = front ++ b :: segment.text := by
  have hparen : ∀ {blanks : List Char}, Text.allBlank blanks = true → ')' ∉ blanks :=
    fun hb hmem => absurd (List.all_eq_true.mp hb ')' hmem) (by decide)
  have hlast : ∀ {blanks : List Char}, blanks ≠ [] → Text.allBlank blanks = true →
      ∃ init b, blanks = init ++ [b] ∧ Text.allBlank init = true ∧ Text.isBlank b = true := by
    intro blanks hne hb
    obtain ⟨init, b, rfl⟩ := (List.eq_nil_or_concat blanks).resolve_left hne
    rw [List.concat_eq_append] at hb ⊢
    rw [Text.allBlank, List.all_append, Bool.and_eq_true] at hb
    exact ⟨init, b, rfl, hb.1, by simpa using hb.2⟩
  cases h with
  | none => exact .inl rfl
  | @plain blanks segment hne hb hsegment =>
    obtain ⟨init, b, rfl, hinit, hblank⟩ := hlast hne hb
    exact .inr ⟨init, b, segment, hsegment, hblank, hparen hinit, by simp⟩
  | @word blanks word gap segment _ hb hword hne hgap hsegment =>
    obtain ⟨init, b, rfl, hinit, hblank⟩ := hlast hne hgap
    obtain ⟨a, s, rfl, ha, hs⟩ := exists_of_isKeyword_as hword
    refine .inr ⟨blanks ++ ([a, s] ++ init), b, segment, hsegment, hblank, ?_, by simp⟩
    simp only [List.mem_append, List.mem_cons, List.not_mem_nil, or_false, not_or]
    -- neither letter of the word is a parenthesis
    refine ⟨hparen hb, ⟨?_, ?_⟩, hparen hinit⟩
    all_goals
      rintro rfl
      contradiction

/-- What is written behind a name begins with a blank, if there is anything. -/
theorem isBlank_head (h : AliasText alias? tail) {trail : List Char}
    (htrail : Text.allBlank trail = true) : ∀ c ∈ (tail ++ trail).head?, Text.isBlank c = true := by
  have hfront : ∀ {blanks : List Char}, blanks ≠ [] → Text.allBlank blanks = true →
      ∀ s, ∀ c ∈ (blanks ++ s).head?, Text.isBlank c = true := by
    intro blanks hne hb s c hc
    obtain ⟨b, bs, rfl⟩ := List.exists_cons_of_ne_nil hne
    obtain rfl := Option.some.inj hc
    exact List.all_eq_true.mp hb b List.mem_cons_self
  cases h with
  | none => exact fun c hc => List.all_eq_true.mp htrail c (List.mem_of_head? hc)
  | plain hne hb _ =>
    rw [List.append_assoc]
    exact hfront hne hb _
  | word hne hb _ _ _ _ =>
    rw [List.append_assoc]
    exact hfront hne hb _

/-- An alias does not end with a blank. -/
theorem ends_append (h : AliasText alias? tail) {s : List Char} (hs : Text.Ends s) :
    Text.Ends (s ++ tail) := by
  rcases h.eq_nil_or with rfl | ⟨front, b, segment, hsegment, -, -, rfl⟩
  · rwa [List.append_nil]
  · have hends := hsegment.wellFormed.ends.append (s ++ (front ++ [b]))
    simpa using hends

end AliasText

/-- No segment goes across a closing parenthesis up to the end of an alias. -/
theorem text_ne_paren {segment : Segment} (hsegment : segment.WellFormed) {alias? : Option Segment}
    {tail : List Char} (htail : AliasText alias? tail) (s : List Char) :
    segment.text ≠ s ++ ')' :: tail := by
  intro htext
  cases segment with
  | bare name =>
    -- a word has no parentheses
    have hmem : ')' ∈ name := by
      rw [text] at htext
      rw [htext]
      simp
    exact absurd (hsegment.2 _ hmem) (by decide)
  | quoted name =>
    rw [text] at htext
    have hlast : (s ++ ')' :: tail).getLast? = some '"' := by
      rw [← htext, Text.getLast?_quoted]
    rcases htail.eq_nil_or with rfl | ⟨front, b, other, hother, hb, -, rfl⟩
    · simp at hlast
    cases other with
    | bare word =>
      -- nor does a word end with a quote
      obtain ⟨c, hc⟩ := Option.ne_none_iff_exists'.mp
        (mt List.getLast?_eq_none_iff.mp hother.wellFormed.1)
      have hquote : c = '"' := by
        simpa [List.getLast?_append, List.getLast?_cons, text, hc] using hlast
      have htail := hother.wellFormed.2 c (List.mem_of_getLast? hc)
      rw [hquote] at htail
      exact absurd htail (by decide)
    | quoted other =>
      -- the quote behind the blank would have to be one of two
      cases s with
      | nil => cases (List.cons.inj htext).1
      | cons c s =>
        have hdoubled : Text.doubled '"' name
            = (s ++ ')' :: front) ++ b :: ('"' :: Text.doubled '"' other) := by
          have hconcat : Text.doubled '"' name ++ ['"']
              = (s ++ ')' :: front) ++ b :: ('"' :: Text.doubled '"' other) ++ ['"'] := by
            simpa [Text.quoted, text] using (List.cons.inj htext).2
          exact List.append_cancel_right hconcat
        have hquote : b ≠ '"' := by
          rintro rfl
          exact absurd hb (by decide)
        obtain ⟨t, ht⟩ := Text.eq_doubled_of_doubled_eq hquote hdoubled
        exact Text.doubled_ne_cons_doubled _ _ _ ht.symm

/-- A segment is not read as the word AS with an alias behind it. -/
theorem bind_afterAs_text {segment : Segment} (h : segment.Proper) {trail : List Char}
    (htrail : Text.allBlank trail = true) :
    (afterAs (segment.text ++ trail)).bind readLast = none := by
  cases has : afterAs (segment.text ++ trail) with
  | none => rfl
  | some rest =>
    obtain ⟨a, b, c, tail, htext, hword, hc, rfl⟩ := afterAs_eq_some has
    obtain ⟨_, _, ⟨⟩, ha, hb⟩ := exists_of_isKeyword_as hword
    have hblank : ∀ d ∈ trail, Text.isBlank d = true := List.all_eq_true.mp htrail
    cases segment with
    | quoted name =>
      obtain ⟨rfl, -⟩ := List.cons.inj htext
      exact absurd ha (by decide)
    | bare name =>
      obtain ⟨a', cs, rfl, -, hcs⟩ := h
      obtain ⟨-, htext : cs ++ trail = b :: c :: tail⟩ := List.cons.inj htext
      -- the word is AS itself, so there is nothing behind it but blanks
      cases cs with
      | nil =>
        obtain rfl : trail = b :: c :: tail := htext
        have hletter := hblank b List.mem_cons_self
        rw [not_isBlank_of_isLetter hb] at hletter
        cases hletter
      | cons d cs =>
        obtain ⟨-, htext : cs ++ trail = c :: tail⟩ := List.cons.inj htext
        cases cs with
        | nil =>
          obtain rfl : trail = c :: tail := htext
          have hnil : Text.skipBlanks tail = [] :=
            List.dropWhile_eq_nil_iff.mpr fun d hd => hblank d (List.mem_cons_of_mem _ hd)
          rw [hnil]
          rfl
        | cons e cs =>
          obtain ⟨rfl, -⟩ := List.cons.inj htext
          rw [not_isBlank_of_isTail (hcs e (by simp))] at hc
          cases hc

/-- Behind blanks, an alias after the word AS is tried first. -/
theorem readAlias_blanks {blanks : List Char} (hne : blanks ≠ [])
    (hb : Text.allBlank blanks = true) {c : Char} (hc : Text.isBlank c = false) (s : List Char) :
    readAlias (blanks ++ c :: s)
      = ((afterAs (c :: s)).bind readLast <|> readLast (c :: s)).map some := by
  obtain ⟨b, bs, rfl⟩ := List.exists_cons_of_ne_nil hne
  rw [Text.allBlank, List.all_cons, Bool.and_eq_true] at hb
  have hfull : Text.allBlank (b :: bs ++ c :: s) = false :=
    Text.allBlank_eq_false hc (by simp)
  rw [readAlias.eq_def, if_neg (Bool.eq_false_iff.mp hfull), List.cons_append]
  dsimp only
  rw [if_pos hb.1, Text.skipBlanks_append hb.2, Text.skipBlanks_cons hc]
  cases (afterAs (c :: s)).bind readLast <;> rfl

section

variable {alias? : Option Segment} {tail trail : List Char} (htail : AliasText alias? tail)
  (htrail : Text.allBlank trail = true)
include htail htrail

/-- No alias is read across a closing parenthesis. -/
theorem readAlias_paren (s : List Char) : readAlias (s ++ ')' :: (tail ++ trail)) = none := by
  cases h : readAlias (s ++ ')' :: (tail ++ trail)) with
  | none => rfl
  | some found =>
    exfalso
    obtain ⟨tail', blanks, htail', hb, htext⟩ := readAlias_some h
    rcases htail'.eq_nil_or with rfl | ⟨front, b, segment, hsegment, hblank, hparen, rfl⟩
    · rw [List.nil_append] at htext
      rw [← htext, Text.allBlank_eq_false (c := ')') (by decide) (by simp)] at hb
      cases hb
    rw [List.append_assoc, List.cons_append, List.append_cons front b] at htext
    -- the parenthesis is not in front of the segment
    obtain ⟨t, ht⟩ : ∃ t, segment.text ++ blanks = (t ++ ')' :: tail) ++ trail := by
      rcases List.append_eq_append_iff.mp htext with ⟨t, hlead, ht⟩ | ⟨t, -, ht⟩
      · cases t with
        | nil => exact ⟨[], ht.symm⟩
        | cons c t =>
          obtain ⟨rfl, -⟩ := List.cons.inj ht
          have hmem : ')' ∈ front ++ [b] := by simp [hlead]
          rw [List.mem_append, List.mem_singleton] at hmem
          rcases hmem with hmem | rfl
          · exact absurd hmem hparen
          · exact absurd hblank (by decide)
      · exact ⟨t, by simpa using ht⟩
    -- what is in front of the parenthesis does not end with a blank, so both texts end at the same
    -- place
    have hends : Text.Ends (t ++ [')']) := ⟨')', List.getLast?_concat, by decide⟩
    rw [List.append_cons t] at ht
    have hsame := Text.Ends.append_inj hsegment.wellFormed.ends (htail.ends_append hends) hb
      htrail ht
    rw [← List.append_cons t] at hsame
    exact text_ne_paren hsegment.wellFormed htail t hsame

/-- An alias is read back. -/
theorem readAlias_text : readAlias (tail ++ trail) = some alias? := by
  cases htail with
  | none =>
    rw [List.nil_append, readAlias.eq_def, if_pos htrail]
  | @plain blanks segment hne hb hsegment =>
    obtain ⟨c, cs, hcs, hc⟩ := hsegment.exists_head
    have hread := readAlias_blanks hne hb (not_isBlank_of_head hc) (cs ++ trail)
    rw [← List.cons_append, ← hcs, bind_afterAs_text hsegment htrail,
      readLast_text hsegment htrail] at hread
    rw [List.append_assoc]
    exact hread
  | @word blanks word gap segment hne hb hword hgap hg hsegment =>
    -- the word AS is two letters, and its gap keeps it apart from the name
    obtain ⟨a, s, rfl, ha, -⟩ := exists_of_isKeyword_as hword
    obtain ⟨g, gs, rfl⟩ := List.exists_cons_of_ne_nil hgap
    rw [Text.allBlank, List.all_cons, Bool.and_eq_true] at hg
    have hafter : afterAs (a :: s :: g :: (gs ++ (segment.text ++ trail)))
        = some (segment.text ++ trail) := by
      rw [afterAs, hword, hg.1, Text.skipBlanks_append hg.2, hsegment.skipBlanks_append]
      rfl
    have hread := readAlias_blanks hne hb (not_isBlank_of_isLetter ha)
      (s :: g :: (gs ++ (segment.text ++ trail)))
    rw [hafter, Option.bind_some, readLast_text hsegment htrail] at hread
    simpa using hread

end

end Segment

/-- The alias that a written alias is read as. -/
def Segment.ofAlias (alias? : Option String) : Option Segment :=
  alias?.map fun name => .quoted name.toList

/-- The segment of an alias means the alias. -/
theorem Segment.map_meaning_ofAlias (alias? : Option String) :
    (ofAlias alias?).map meaning = alias? := by
  cases alias? <;> simp [ofAlias, meaning, name]

/-- An alias is written as AS and its quoted form, with blanks in front of both. -/
theorem toList_aliasSql_some (name : String) :
    (aliasSql (some name)).toList = [' ', 'A', 'S', ' '] ++ Text.quoted '"' name.toList := by
  simp [aliasSql, Identifier.quoted]

/-- A written alias is one of the ways to write it. -/
theorem Segment.aliasText_aliasSql (alias? : Option String) (h : ∀ name ∈ alias?, name ≠ "") :
    AliasText (ofAlias alias?) (aliasSql alias?).toList := by
  cases alias? with
  | none => exact .none
  | some name =>
    have hname : name.toList ≠ [] := by simpa using h name rfl
    rw [toList_aliasSql_some]
    show AliasText _ ([' '] ++ (['A', 'S'] ++ ([' '] ++ (quoted name.toList).text)))
    exact .word (by decide) (by decide) (by decide) (by decide) (by decide) hname

end SqlAssembly

import SqlAssembly.Proofs.ColumnExpr.Grammar
import SqlAssembly.Proofs.Identifier.Segment

namespace SqlAssembly

/-!
# Splitting joined arguments

Arguments that are joined by commas are the pieces between these commas again, if no argument has a
comma of its own where it would separate and none leaves a quote or a parenthesis open.

* `ArgumentList.after` — the depth and the open quote behind a text without separating commas;
* `ArgumentList.topLevel_append`, `ArgumentList.topLevel_intercalate` — such a text stays whole;
* `ArgumentList.Keeps` — a text that may stand inside of parentheses of any number;
* `ArgumentList.split_trim`, `ArgumentList.split_padded` — the arguments are split as they were
  joined, whatever blanks are around the list and around each of them;
* `Grammar.keeps_of_segment`, `Grammar.keeps_of_aliasText`, `Grammar.keeps_of_isString` — the parts
  of expressions are such texts;
* `Grammar.keeps_call` — and so are calls.
-/

namespace ArgumentList

/-! ### Texts without separating commas -/

/-- The depth and the open quote behind a text, unless one of its commas separates. -/
def after (depth : Int) : Option Char → List Char → Option (Int × Option Char)
  | quote?, [] => some (depth, quote?)
  | some q, c :: s => after depth (if c = q then none else some q) s
  | none, c :: s =>
    if c = ',' ∧ depth = 0 then none
    else if c = '"' ∨ c = '\'' then after depth (some c) s
    else if c = '(' then after (depth + 1) none s
    else if c = ')' then after (depth - 1) none s
    else after depth none s

/-- The depth behind two texts is counted over the second from where the first one ends. -/
theorem after_append (depth : Int) (quote? : Option Char) (s t : List Char) :
    after depth quote? (s ++ t) = (after depth quote? s).bind fun r => after r.1 r.2 t := by
  fun_induction after depth quote? s with
  | case1 => rfl
  | case2 depth q c s ih => rw [List.cons_append, after, ih]
  | case3 depth c s h => rw [List.cons_append, after, if_pos h]; rfl
  | case4 depth c s hcomma h ih => rw [List.cons_append, after, if_neg hcomma, if_pos h, ih]
  | case5 depth s hcomma hquote ih =>
    rw [List.cons_append, after, if_neg hcomma, if_neg hquote, if_pos rfl, ih]
  | case6 depth s hcomma hquote hopen ih =>
    rw [List.cons_append, after, if_neg hcomma, if_neg hquote, if_neg hopen, if_pos rfl, ih]
  | case7 depth c s hcomma hquote hopen hclose ih =>
    rw [List.cons_append, after, if_neg hcomma, if_neg hquote, if_neg hopen, if_neg hclose, ih]

/-- A text without separating commas belongs to the first piece. -/
theorem topLevel_append {depth depth' : Int} {quote? quote?' : Option Char} {s : List Char}
    (h : after depth quote? s = some (depth', quote?')) (rest : List Char) :
    topLevel depth quote? (s ++ rest) = (topLevel depth' quote?' rest).modifyHead (s ++ ·) := by
  -- every character is put in front of the first piece of what follows it
  fun_induction after depth quote? s with
  | case1 =>
    cases h
    rw [List.nil_append]
    cases topLevel depth' quote?' rest <;> rfl
  | case2 depth q c s ih => simp [topLevel, ih h, Function.comp_def]
  | case3 => cases h
  | case4 depth c s hcomma hquote ih => simp [topLevel, hcomma, hquote, ih h, Function.comp_def]
  | case5 depth s hcomma hquote ih => simp [topLevel, ih h, Function.comp_def]
  | case6 depth s hcomma hquote hopen ih => simp [topLevel, ih h, Function.comp_def]
  | case7 depth c s hcomma hquote hopen hclose ih =>
    simp [topLevel, hcomma, hquote, hopen, hclose, ih h, Function.comp_def]

/-- Texts that close what they open and have no separating commas are the pieces between the
commas that join them. -/
theorem topLevel_intercalate {pieces : List (List Char)} (hne : pieces ≠ [])
    (h : ∀ piece ∈ pieces, after 0 none piece = some (0, none)) :
    topLevel 0 none ([','].intercalate pieces) = pieces := by
  induction pieces with
  | nil => exact absurd rfl hne
  | cons piece pieces ih =>
    rw [List.forall_mem_cons] at h
    -- no comma stands behind the last piece
    cases pieces with
    | nil =>
      have htop := topLevel_append h.1 []
      rw [List.append_nil] at htop
      simp [htop, topLevel]
    | cons other pieces =>
      have hrest := ih (List.cons_ne_nil other pieces) h.2
      rw [List.intercalate_cons_cons, List.append_assoc, topLevel_append h.1, List.singleton_append,
        topLevel, if_pos ⟨rfl, rfl⟩, hrest]
      simp

/-! ### Texts inside of parentheses -/

/-- Inside of `n` parentheses or more, the text separates nothing and leaves nothing open. -/
def Keeps (n : Int) (s : List Char) : Prop :=
  ∀ depth, n ≤ depth → after depth none s = some (depth, none)

/-- The character neither opens nor closes nor separates anything. -/
def isPlain (c : Char) : Bool := c != ',' && c != '"' && c != '\'' && c != '(' && c != ')'

namespace Keeps

variable {n : Int} {s t : List Char}

theorem nil : Keeps n [] := fun _ _ => rfl

/-- Two texts that leave nothing open do not do so together. -/
theorem append (hs : Keeps n s) (ht : Keeps n t) : Keeps n (s ++ t) := by
  intro depth hdepth
  rw [after_append, hs depth hdepth]
  exact ht depth hdepth

/-- A text that stays whole inside of `m` parentheses does so inside of more. -/
theorem mono {m : Int} (h : m ≤ n) (hs : Keeps m s) : Keeps n s :=
  fun depth hdepth => hs depth (Int.le_trans h hdepth)

/-- A text of plain characters. -/
theorem plain (h : s.all isPlain = true) : Keeps n s := by
  intro depth _
  induction s with
  | nil => rfl
  | cons c s ih =>
    rw [List.all_cons, Bool.and_eq_true] at h
    obtain ⟨hc, hs⟩ := h
    simp only [isPlain, Bool.and_eq_true, bne_iff_ne, ne_eq] at hc
    obtain ⟨⟨⟨⟨hcomma, hname⟩, hstring⟩, hopen⟩, hclose⟩ := hc
    -- none of the four special cases applies
    rw [after, if_neg (by simp [hcomma]), if_neg (by simp [hname, hstring]), if_neg hopen,
      if_neg hclose]
    exact ih hs

/-- A comma inside of parentheses separates nothing. -/
theorem comma (hn : 0 < n) : Keeps n [','] := by
  intro depth hdepth
  have hne : depth ≠ 0 := by omega
  rw [after, if_neg (by simp [hne]), if_neg (by decide), if_neg (by decide), if_neg (by decide)]
  rfl

/-- A text between parentheses stands inside of one more. -/
theorem wrap (hs : Keeps (n + 1) s) : Keeps n ('(' :: (s ++ [')'])) := by
  intro depth hdepth
  have hinner := hs (depth + 1) (by omega)
  rw [after, if_neg (by simp), if_neg (by decide), if_pos rfl, after_append, hinner]
  simp [after]

/-- A doubled quote closes and opens again, so everything up to the last quote is inside. -/
theorem after_doubled {q : Char} (hq : q = '"' ∨ q = '\'') (depth : Int) (s rest : List Char) :
    after depth (some q) (Text.doubled q s ++ q :: rest) = after depth none rest := by
  have hcomma : ¬ (q = ',' ∧ depth = 0) := by rcases hq with rfl | rfl <;> simp
  induction s with
  | nil => simp [Text.doubled, after]
  | cons c s ih =>
    by_cases hc : c = q
    · subst hc
      rw [Text.doubled, if_pos rfl, List.cons_append, List.cons_append, after, if_pos rfl, after,
        if_neg hcomma, if_pos hq, ih]
    · rw [Text.doubled, if_neg hc, List.cons_append, after, if_neg hc, ih]

/-- A quoted text separates nothing, whatever is in it. -/
theorem quoted {q : Char} (hq : q = '"' ∨ q = '\'') (s : List Char) :
    Keeps n (Text.quoted q s) := by
  intro depth _
  have hcomma : ¬ (q = ',' ∧ depth = 0) := by rcases hq with rfl | rfl <;> simp
  rw [Text.quoted, List.cons_append, after, if_neg hcomma, if_pos hq, after_doubled hq]
  rfl

/-- Joined texts leave nothing open if neither they nor the separator do. -/
theorem intercalate {sep : List Char} (hsep : Keeps n sep) {texts : List (List Char)}
    (h : ∀ s ∈ texts, Keeps n s) : Keeps n (sep.intercalate texts) := by
  induction texts with
  | nil => exact nil
  | cons s texts ih =>
    rw [List.forall_mem_cons] at h
    cases texts with
    | nil => simpa using h.1
    | cons t texts =>
      rw [List.intercalate_cons_cons]
      exact (h.1.append hsep).append (ih h.2)

end Keeps

/-! ### Blanks around arguments -/

/-- The blank behind a comma belongs to the piece that follows. -/
theorem intercalate_blank (first : List Char) (rest : List (List Char)) :
    [',', ' '].intercalate (first :: rest) = [','].intercalate (first :: rest.map (' ' :: ·)) := by
  induction rest generalizing first with
  | nil => rfl
  | cons second rest ih =>
    rw [List.intercalate_cons_cons, ih, List.map_cons, List.intercalate_cons_cons]
    cases rest <;> simp [List.intercalate_cons_cons]

/-- No blank opens, closes or separates anything. -/
theorem isPlain_of_isBlank {c : Char} (h : Text.isBlank c = true) : isPlain c = true := by
  simp only [isPlain, Bool.and_eq_true, bne_iff_ne, ne_eq]
  refine ⟨⟨⟨⟨?_, ?_⟩, ?_⟩, ?_⟩, ?_⟩
  all_goals
    rintro rfl
    exact absurd h (by decide)

/-- Blanks stay whole at any depth. -/
theorem Keeps.blanks {n : Int} {blanks : List Char} (h : Text.allBlank blanks = true) :
    Keeps n blanks :=
  .plain (List.all_eq_true.mpr fun c hc => isPlain_of_isBlank (List.all_eq_true.mp h c hc))

section

variable {blanks : List Char} (hb : Text.allBlank blanks = true)
include hb

/-- Blanks are one piece, inside of quotes as well as outside. -/
theorem topLevel_blanks (depth : Int) (quote? : Option Char) :
    topLevel depth quote? blanks = [blanks] := by
  induction blanks generalizing quote? with
  | nil => rfl
  | cons c blanks ih =>
    rw [Text.allBlank, List.all_cons, Bool.and_eq_true] at hb
    have hrest := fun quote? => ih hb.2 quote?
    cases quote? with
    | some q => rw [topLevel, hrest, List.modifyHead_cons]
    | none =>
      have hplain := isPlain_of_isBlank hb.1
      simp only [isPlain, Bool.and_eq_true, bne_iff_ne, ne_eq] at hplain
      obtain ⟨⟨⟨⟨hcomma, hname⟩, hstring⟩, hopen⟩, hclose⟩ := hplain
      simp [topLevel, hcomma, hname, hstring, hopen, hclose, hrest]

/-- Blanks behind a text belong to its last piece. -/
theorem topLevel_append_blanks (depth : Int) (quote? : Option Char) (s : List Char) :
    ∃ init last, topLevel depth quote? s = init ++ [last] ∧
      topLevel depth quote? (s ++ blanks) = init ++ [last ++ blanks] := by
  -- a character goes to the first piece, which may be the last one too
  have hcons : ∀ {c : Char} {ps ps' : List (List Char)},
      (∃ init last, ps = init ++ [last] ∧ ps' = init ++ [last ++ blanks]) →
      ∃ init last, ps.modifyHead (c :: ·) = init ++ [last] ∧
        ps'.modifyHead (c :: ·) = init ++ [last ++ blanks] := by
    rintro c _ _ ⟨init, last, rfl, rfl⟩
    cases init with
    | nil => exact ⟨[], c :: last, rfl, rfl⟩
    | cons p init => exact ⟨(c :: p) :: init, last, rfl, rfl⟩
  fun_induction topLevel depth quote? s with
  | case1 depth quote? =>
    exact ⟨[], [], rfl, topLevel_blanks hb depth quote?⟩
  | case2 depth q c s ih =>
    rw [List.cons_append, topLevel]
    exact hcons ih
  | case3 depth c s h ih =>
    obtain ⟨init, last, hs, hsb⟩ := ih
    rw [List.cons_append, topLevel, if_pos h, hs, hsb]
    exact ⟨[] :: init, last, rfl, rfl⟩
  | case4 depth c s hcomma hquote ih =>
    rw [List.cons_append, topLevel, if_neg hcomma, if_pos hquote]
    exact hcons ih
  | case5 depth s hcomma hquote ih =>
    rw [List.cons_append, topLevel, if_neg hcomma, if_neg hquote, if_pos rfl]
    exact hcons ih
  | case6 depth s hcomma hquote hopen ih =>
    rw [List.cons_append, topLevel, if_neg hcomma, if_neg hquote, if_neg hopen, if_pos rfl]
    exact hcons ih
  | case7 depth c s hcomma hquote hopen hclose ih =>
    rw [List.cons_append, topLevel, if_neg hcomma, if_neg hquote, if_neg hopen, if_neg hclose]
    exact hcons ih

/-- Blanks behind a list go to its last argument, which is trimmed. -/
theorem split_append_blanks (s : List Char) : split (s ++ blanks) = split s := by
  obtain ⟨init, last, hs, hsb⟩ := topLevel_append_blanks hb 0 none s
  rw [split, split, hs, hsb, List.map_append, List.map_append, List.map_singleton,
    List.map_singleton, Text.trim_append hb]

/-- Blanks in front of a list go to its first argument. -/
theorem split_blanks_append (s : List Char) : split (blanks ++ s) = split s := by
  have htop := topLevel_append (Keeps.blanks (n := 0) hb 0 (Int.le_refl 0)) s
  have htrim : (topLevel 0 none (blanks ++ s)).map Text.trim
      = (topLevel 0 none s).map Text.trim := by
    rw [htop]
    cases topLevel 0 none s with
    | nil => rfl
    | cons p ps =>
      rw [List.modifyHead_cons, List.map_cons, List.map_cons, Text.trim,
        Text.skipBlanks_append hb]
      rfl
  rw [split, split, htrim]

end

/-- Blanks around a list change none of its arguments. -/
theorem split_trim (s : List Char) : split (Text.trim s) = split s := by
  obtain ⟨lead, trail, hlead, htrail, hs⟩ := Text.exists_trim s
  calc
    split (Text.trim s) = split (Text.trim s ++ trail) := (split_append_blanks htrail _).symm
    _ = split (lead ++ (Text.trim s ++ trail)) := (split_blanks_append hlead _).symm
    _ = split s := by rw [← hs]

/-- Joined arguments are split as they were joined, whatever blanks are around each of them, if none
has blanks at its own ends, separating commas or anything that it leaves open. -/
theorem split_padded {ι : Type} {items : List ι} {before text behind : ι → List Char}
    (hblank : ∀ i ∈ items, Text.allBlank (before i) = true ∧ Text.allBlank (behind i) = true)
    (htext : ∀ i ∈ items, Text.Trimmed (text i) ∧ after 0 none (text i) = some (0, none)) :
    split ([','].intercalate (items.map fun i => before i ++ (text i ++ behind i)))
      = items.map text := by
  rcases eq_or_ne items [] with rfl | hne
  · show split [] = []
    decide
  -- blanks are plain, so a padded text stays whole if the text does
  have hwhole : ∀ piece ∈ items.map (fun i => before i ++ (text i ++ behind i)),
      after 0 none piece = some (0, none) := by
    intro piece hpiece
    obtain ⟨i, hi, rfl⟩ := List.mem_map.mp hpiece
    obtain ⟨hbefore, hbehind⟩ := hblank i hi
    rw [after_append, Keeps.blanks hbefore 0 (Int.le_refl 0), Option.bind_some, after_append,
      (htext i hi).2, Option.bind_some, Keeps.blanks hbehind 0 (Int.le_refl 0)]
  have htrim : (items.map fun i => before i ++ (text i ++ behind i)).map Text.trim
      = items.map text := by
    rw [List.map_map]
    exact List.map_congr_left fun i hi =>
      (htext i hi).1.trim_padded (hblank i hi).1 (hblank i hi).2
  -- no text is empty, so the last piece is not taken for a trailing comma
  have hlast : (items.map text).getLast? ≠ some [] := by
    intro hnil
    obtain ⟨i, hi, hempty⟩ := List.mem_map.mp (List.mem_of_getLast? hnil)
    exact (htext i hi).1.ne_nil hempty
  rw [split, topLevel_intercalate (by simpa using hne) hwhole, htrim, if_neg hlast]

end ArgumentList

/-! ### Parts of expressions as arguments -/

namespace Grammar

open ArgumentList Text

/-- No character of function names opens, closes or separates anything. -/
theorem isPlain_of_isFunctionTail {c : Char} (h : isFunctionTail c = true) : isPlain c = true :=
  of_isFunctionTail (p := isPlain) (by decide) (by decide) (by decide) h

theorem isFunctionTail_of_isDigit {c : Char} (h : c.isDigit = true) : isFunctionTail c = true := by
  simp [isFunctionTail, h]

/-- What consists of characters of function names stays whole, and has no blanks. -/
theorem keeps_of_forall {n : Int} {s : List Char} (h : ∀ c ∈ s, isFunctionTail c = true) :
    Keeps n s :=
  .plain (List.all_eq_true.mpr fun c hc => isPlain_of_isFunctionTail (h c hc))

/-- What consists of characters of function names has no blanks at its ends. -/
theorem trimmed_of_forall {s : List Char} (hne : s ≠ []) (h : ∀ c ∈ s, isFunctionTail c = true) :
    Trimmed s where
  head := by
    obtain ⟨c, hc⟩ := Option.ne_none_iff_exists'.mp (mt List.head?_eq_none_iff.mp hne)
    exact ⟨c, hc, not_isBlank_of_isFunctionTail (h c (List.mem_of_head? hc))⟩
  last := by
    obtain ⟨c, hc⟩ := Option.ne_none_iff_exists'.mp (mt List.getLast?_eq_none_iff.mp hne)
    exact ⟨c, hc, not_isBlank_of_isFunctionTail (h c (List.mem_of_getLast? hc))⟩

theorem trimmed_quoted {q : Char} (hq : isBlank q = false) (s : List Char) :
    Trimmed (Text.quoted q s) :=
  ⟨⟨q, rfl, hq⟩, ⟨q, getLast?_quoted q s, hq⟩⟩

/-- The name of a function consists of its characters and has one at least. -/
theorem forall_of_isFunctionName {s : List Char} (h : IsFunctionName s) :
    s ≠ [] ∧ ∀ c ∈ s, isFunctionTail c = true := by
  obtain ⟨c, cs, rfl, hc, hcs⟩ := h
  rw [List.forall_mem_cons]
  exact ⟨List.cons_ne_nil c cs, by simp [isFunctionTail, hc], hcs⟩

/-- A name without quotes may also have a dollar, which is plain. -/
theorem isPlain_of_bare {name : List Char} (h : (Segment.bare name).Proper) :
    ∀ c ∈ name, isPlain c = true := by
  intro c hc
  have htail := h.wellFormed.2 c hc
  rw [Segment.isTail, Bool.or_eq_true, beq_iff_eq] at htail
  rcases htail with htail | rfl
  · exact isPlain_of_isFunctionTail htail
  · decide

/-- A name stays whole, with quotes or without. -/
theorem keeps_of_segment {segment : Segment} (h : segment.Proper) : Keeps 0 segment.text := by
  cases segment with
  | quoted name => exact .quoted (.inl rfl) name
  | bare name => exact .plain (List.all_eq_true.mpr (isPlain_of_bare h))

/-- A name has no blanks at its ends; inside of quotes it may have some. -/
theorem trimmed_of_segment {segment : Segment} (h : segment.Proper) : Trimmed segment.text := by
  obtain ⟨c, cs, hcs, hc⟩ := h.exists_head
  exact ⟨⟨c, by rw [hcs]; rfl, Segment.not_isBlank_of_head hc⟩, h.wellFormed.ends⟩

/-- Names with points between them stay whole, as each of them does. -/
theorem keeps_of_path {path : List Segment} (h : ∀ segment ∈ path, segment.Proper) :
    Keeps 0 (['.'].intercalate (path.map Segment.text)) := by
  refine .intercalate (.plain (by decide)) fun s hs => ?_
  obtain ⟨segment, hsegment, rfl⟩ := List.mem_map.mp hs
  exact keeps_of_segment (h segment hsegment)

/-- The ends of a path are those of its first and its last name. -/
theorem trimmed_of_path {path : List Segment} (hne : path ≠ [])
    (h : ∀ segment ∈ path, segment.Proper) :
    Trimmed (['.'].intercalate (path.map Segment.text)) := by
  refine .intercalate (by simpa using hne) fun s hs => ?_
  obtain ⟨segment, hsegment, rfl⟩ := List.mem_map.mp hs
  exact trimmed_of_segment (h segment hsegment)

/-- The word between a column and its alias consists of letters. -/
theorem isFunctionTail_of_isKeyword_as {word : List Char} (h : isKeyword "AS" word = true) :
    ∀ c ∈ word, isFunctionTail c = true := by
  obtain ⟨a, s, rfl, ha, hs⟩ := Segment.exists_of_isKeyword_as h
  simp [isFunctionTail, isFunctionHead, ha, hs]

/-- An alias with all that stands in front of it stays whole. -/
theorem keeps_of_aliasText {alias? : Option Segment} {tail : List Char}
    (h : Segment.AliasText alias? tail) : Keeps 0 tail := by
  cases h with
  | none => exact .nil
  | plain _ hb hsegment => exact (Keeps.blanks hb).append (keeps_of_segment hsegment)
  | word _ hb hword _ hgap hsegment =>
    have hletters := keeps_of_forall (n := 0) (isFunctionTail_of_isKeyword_as hword)
    exact (Keeps.blanks hb).append
      (hletters.append ((Keeps.blanks hgap).append (keeps_of_segment hsegment)))

/-- With an alias behind it, a text ends with the alias, or as it did without one. -/
theorem trimmed_append_alias {s tail : List Char} (hs : Trimmed s) {alias? : Option Segment}
    (h : Segment.AliasText alias? tail) : Trimmed (s ++ tail) := by
  obtain ⟨c, hc, hblank⟩ := hs.head
  exact ⟨⟨c, by simp [hc], hblank⟩, h.ends_append hs.last⟩

/-- A call stays whole if its list does inside of the parentheses. -/
theorem keeps_call {function gap list tail : List Char} {alias? : Option Segment}
    (hfunction : IsFunctionName function) (hgap : Text.allBlank gap = true) (hlist : Keeps 1 list)
    (htail : Segment.AliasText alias? tail) :
    Keeps 0 (function ++ (gap ++ '(' :: (list ++ ')' :: tail))) := by
  have hname : Keeps 0 function := keeps_of_forall (forall_of_isFunctionName hfunction).2
  have hinside : Keeps 0 ('(' :: (list ++ [')'])) := Keeps.wrap hlist
  have hcall := hname.append ((Keeps.blanks hgap).append
    (hinside.append (keeps_of_aliasText htail)))
  simpa using hcall

/-- A call begins with its name and ends with its alias or its parenthesis. -/
theorem trimmed_call {function tail : List Char} {alias? : Option Segment}
    (hfunction : IsFunctionName function) (gap list : List Char)
    (htail : Segment.AliasText alias? tail) :
    Trimmed (function ++ (gap ++ '(' :: (list ++ ')' :: tail))) := by
  obtain ⟨hne, hname⟩ := forall_of_isFunctionName hfunction
  obtain ⟨c, hc, hblank⟩ := (trimmed_of_forall hne hname).head
  have hcall : Trimmed (function ++ (gap ++ '(' :: (list ++ [')']))) := by
    refine ⟨⟨c, by simp [hc], hblank⟩, ⟨')', ?_, by decide⟩⟩
    rw [← List.cons_append, ← List.append_assoc, ← List.append_assoc, List.getLast?_concat]
  simpa using trimmed_append_alias hcall htail

/-- The characters of a number are digits, a minus and a point. -/
theorem isPlain_of_isNumber {s : List Char} (h : IsNumber s) : ∀ c ∈ s, isPlain c = true := by
  have hdigits : ∀ {r : List Char}, IsDigits r → ∀ c ∈ r, isPlain c = true := fun hr c hc =>
    isPlain_of_isFunctionTail (isFunctionTail_of_isDigit (hr.2 c hc))
  obtain ⟨sign, whole, hsign, hwhole, hs⟩ := h
  have hminus : ∀ c ∈ sign, isPlain c = true := by
    rcases hsign with rfl | rfl
    · nofun
    · exact List.forall_mem_singleton.mpr (by decide)
  rcases hs with rfl | ⟨places, hplaces, rfl⟩
  · exact List.forall_mem_append.mpr ⟨hminus, hdigits hwhole⟩
  · rw [List.forall_mem_append, List.forall_mem_append, List.forall_mem_cons]
    exact ⟨hminus, hdigits hwhole, by decide, hdigits hplaces⟩

theorem keeps_of_isNumber {s : List Char} (h : IsNumber s) : Keeps 0 s :=
  .plain (List.all_eq_true.mpr (isPlain_of_isNumber h))

/-- A number has no blanks, at its ends or elsewhere. -/
theorem trimmed_of_isNumber {s : List Char} (h : IsNumber s) : Trimmed s := by
  have hdigits : ∀ {r : List Char}, IsDigits r → Trimmed r := fun hr =>
    trimmed_of_forall hr.1 fun c hc => isFunctionTail_of_isDigit (hr.2 c hc)
  obtain ⟨sign, whole, hsign, hwhole, hs⟩ := h
  -- a minus in front does not change the end
  have hminus : ∀ {r : List Char}, Trimmed r → Trimmed (sign ++ r) := by
    intro r hr
    rcases hsign with rfl | rfl
    · exact hr
    · exact Trimmed.append ⟨⟨'-', rfl, by decide⟩, ⟨'-', rfl, by decide⟩⟩ hr
  rcases hs with rfl | ⟨places, hplaces, rfl⟩
  · exact hminus (hdigits hwhole)
  · have hpoint : Trimmed ['.'] := ⟨⟨'.', rfl, by decide⟩, ⟨'.', rfl, by decide⟩⟩
    exact hminus ((hdigits hwhole).append (hpoint.append (hdigits hplaces)))

/-- A string stays whole, whatever is in it. -/
theorem keeps_of_isString {s : List Char} (h : IsString s) : Keeps 0 s := by
  obtain ⟨content, rfl⟩ := h
  exact .quoted (.inr rfl) content

theorem trimmed_of_isString {s : List Char} (h : IsString s) : Trimmed s := by
  obtain ⟨content, rfl⟩ := h
  exact trimmed_quoted (by decide) content

end Grammar

end SqlAssembly

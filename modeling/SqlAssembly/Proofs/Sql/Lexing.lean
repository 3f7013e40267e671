import SqlAssembly.Proofs.Sql.Token

namespace SqlAssembly.Sql

/-!
# Where the lexer stands

The lexer goes through a text token by token, and between two tokens it stands before the rest of
the text.

* `Lexes` — some tokens are read, and the lexer stands before the rest;
* `lexes_of_closed` — a closed text is read to its end, whatever follows that no token goes on with;
* `ReadsNext`, `readsNext_string` — the next token, and a string that is written as a literal;
* `lexes_blank`, `Lexes.closed` — the lexer comes to stand right behind a text and a blank exactly
  if the text is closed, whatever follows.
-/

/-- The lexer reads some tokens of a text and then stands before the rest. -/
inductive Lexes : List Char → List Token → List Char → Prop
  | here (s : List Char) : Lexes s [] s
  | read {c : Char} {s rest : List Char} {ts : List Token} (h : Lexes (Token.read c s).2 ts rest) :
    Lexes (c :: s) ((Token.read c s).1.toList ++ ts) rest

namespace Lexes

variable {s t rest : List Char} {ts us : List Token}

theorem trans (h : Lexes s ts t) (ht : Lexes t us rest) : Lexes s (ts ++ us) rest := by
  induction h with
  | here => exact ht
  | read _ ih =>
    rw [List.append_assoc]
    exact .read (ih ht)

/-- One token is read, then the others. -/
theorem of_read {c : Char} {t? : Option Token} (h : Token.read c s = (t?, t))
    (ht : Lexes t ts rest) : Lexes (c :: s) (t?.toList ++ ts) rest := by
  have hread : Lexes (Token.read c s).2 ts rest := by rwa [h]
  have hlexes := Lexes.read hread
  rwa [h] at hlexes

/-- What is left is an end of the text. -/
theorem suffix (h : Lexes s ts rest) : rest <:+ s := by
  induction h with
  | here s => exact List.suffix_rfl
  | read _ ih => exact (ih.trans (Token.read_suffix _ _)).trans (List.suffix_cons _ _)

/-- Where the lexer has not moved, it has read nothing. -/
theorem eq_nil (h : Lexes s ts s) : ts = [] := by
  cases h with
  | here => rfl
  | read h =>
    -- one read would already leave a shorter text
    have hlength := (h.suffix.trans (Token.read_suffix _ _)).length_le
    simp only [List.length_cons] at hlength
    omega

/-- Where the lexer has moved, it has read what stands first. -/
theorem exists_read {c : Char} (h : Lexes (c :: s) ts rest) (hrest : rest ≠ c :: s) :
    ∃ us, ts = (Token.read c s).1.toList ++ us ∧ Lexes (Token.read c s).2 us rest := by
  cases h with
  -- the lexer has moved, so it has not stopped here
  | here => exact absurd rfl hrest
  | read h => exact ⟨_, rfl, h⟩

/-- What is read first and what is read behind it are all tokens of the text. -/
theorem tokens_eq (h : Lexes s ts rest) : tokens s = ts ++ tokens rest := by
  induction h with
  | here => rfl
  | read _ ih => rw [tokens_cons, ih, List.append_assoc]

end Lexes

/-- A closed text is read to its end if no token of it goes on behind it. -/
theorem lexes_of_closed {s rest : List Char} (hs : Closed s) (hr : Apart rest) :
    Lexes (s ++ rest) (tokens s) rest := by
  unfold Closed at hs
  fun_induction tokens s with
  | case1 => exact .here rest
  | case2 c s ih =>
    -- no quote is left open, neither by the first token nor by those behind it
    have hhead : ∀ q, (Token.read c s).1 ≠ some (.unclosed q) := by
      intro q h
      exact hs q (by simp [h])
    have htail : ∀ q, Token.unclosed q ∉ tokens (Token.read c s).2 := by
      intro q h
      exact hs q (List.mem_append_right _ h)
    exact .of_read (Token.read_append hhead hr) (ih htail)

/-- Behind a closed text and a blank anything may follow. -/
theorem lexes_blank {s : List Char} (hs : Closed s) (rest : List Char) :
    Lexes (s ++ ' ' :: rest) (tokens s) rest := by
  have hblank : Token.read ' ' rest = (none, rest) := rfl
  have hlexes := (lexes_of_closed hs (apart_of_isBlank (by simp [Text.isBlank]))).trans
    (.of_read hblank (.here rest))
  rwa [Option.toList_none, List.nil_append, List.append_nil] at hlexes

/-- The next token of a text and what stands behind it. -/
def ReadsNext (s : List Char) (t : Token) (rest : List Char) : Prop :=
  ∃ c s', s = c :: s' ∧ Token.read c s' = (some t, rest)

/-- The next token is read by itself. -/
theorem ReadsNext.lexes {s rest : List Char} {t : Token} (h : ReadsNext s t rest) :
    Lexes s [t] rest := by
  obtain ⟨c, s, rfl, hread⟩ := h
  exact .of_read hread (.here rest)

/-- A literal is one string, with what it was written for as its content, unless an apostrophe
follows it. -/
theorem readsNext_string (s : List Char) {rest : List Char} (h : rest.head? ≠ some '\'') :
    ReadsNext (Text.quoted '\'' s ++ rest) (.string s) rest := by
  refine ⟨'\'', Text.doubled '\'' s ++ '\'' :: rest, by simp [Text.quoted], ?_⟩
  rw [Token.read, if_neg (by decide), if_pos (.inr rfl), Text.closeQuote_doubled '\'' s h]
  rfl

/-! ### Texts that are left -/

/-- What stands behind a closing quote does not begin with another one. -/
theorem head?_ne_of_closeQuote {q : Char} {s : List Char} {r : List Char × List Char}
    (h : Text.closeQuote q s = some r) : r.2.head? ≠ some q := by
  fun_induction Text.closeQuote q s generalizing r with
  | case1 => cases h
  | case2 =>
    cases h
    exact (Option.some_ne_none q).symm
  | case3 => cases h
  | case4 s ih =>
    obtain ⟨r', hr', rfl⟩ := Option.map_eq_some_iff.mp h
    have hrest := ih hr'
    exact hrest
  | case5 d s hd =>
    cases h
    simpa using hd
  | case6 c d s hc ih =>
    obtain ⟨r', hr', rfl⟩ := Option.map_eq_some_iff.mp h
    have hrest := ih hr'
    exact hrest

/-- A quote that is left open in a text is closed, if at all, behind the blank that follows. -/
theorem length_lt_of_closeQuote {q : Char} {s x : List Char} {r : List Char × List Char}
    (hs : Text.closeQuote q s = none) (hq : q ≠ ' ')
    (h : Text.closeQuote q (s ++ ' ' :: x) = some r) : r.2.length < x.length := by
  have hhead := head?_ne_of_closeQuote h
  -- the closing quote stands behind the first text or in it
  rcases List.append_eq_append_iff.mp (Text.eq_doubled_of_closeQuote h) with
    ⟨u, -, hx⟩ | ⟨u, hu, hrest⟩
  · cases u with
    | nil => exact absurd (List.head_eq_of_cons_eq hx).symm hq
    | cons c u =>
      rw [List.cons_append] at hx
      rw [List.tail_eq_of_cons_eq hx]
      simp only [List.length_append, List.length_cons]
      omega
  · -- the closing quote would stand in the first text
    cases u with
    | nil => exact absurd (List.head_eq_of_cons_eq hrest) hq
    | cons c u =>
      rw [List.cons_append] at hrest
      obtain rfl := List.head_eq_of_cons_eq hrest
      have hnext : u.head? ≠ some q := by
        rw [List.tail_eq_of_cons_eq hrest] at hhead
        cases u with
        | nil => nofun
        | cons d u => exact hhead
      rw [hu, Text.closeQuote_doubled q r.1 hnext] at hs
      cases hs

/-- A token that is a quote left open takes the blank that follows and something behind it. -/
theorem length_lt_of_unclosed {c q : Char} {s x : List Char}
    (h : (Token.read c s).1 = some (.unclosed q)) (hx : x ≠ []) :
    (Token.read c (s ++ ' ' :: x)).2.length < x.length := by
  unfold Token.read at h ⊢
  by_cases hblank : Text.isBlank c = true
  · rw [if_pos hblank] at h
    cases h
  rw [if_neg hblank] at h ⊢
  by_cases hquote : c = '"' ∨ c = '\''
  · rw [if_pos hquote] at h ⊢
    cases hs : Text.closeQuote c s with
    | some r =>
      rw [hs] at h
      rcases hquote with rfl | rfl <;> cases h
    | none =>
      -- the quote is closed behind the blank, or it takes everything
      cases hall : Text.closeQuote c (s ++ ' ' :: x) with
      | none => exact List.length_pos_iff.mpr hx
      | some r =>
        refine length_lt_of_closeQuote hs ?_ hall
        rintro rfl
        exact hblank rfl
  · rw [if_neg hquote] at h
    split at h
    · cases h
    split at h <;> cases h

/-- If the lexer comes to stand right behind a text and a blank, it has read the text by itself. -/
theorem Lexes.closed {s x : List Char} {ts : List Token} (h : Lexes (s ++ ' ' :: x) ts x)
    (hx : x ≠ []) : Closed s ∧ ts = tokens s := by
  -- the lexer has to move: what is left is shorter than what it began with
  have hmoved : ∀ s : List Char, x ≠ s ++ ' ' :: x := by
    intro s hs
    have hlength := congrArg List.length hs
    simp only [List.length_append, List.length_cons] at hlength
    omega
  unfold Closed
  fun_induction tokens s generalizing ts with
  | case1 =>
    obtain ⟨us, rfl, h⟩ := h.exists_read (hmoved [])
    exact ⟨fun _ => List.not_mem_nil, h.eq_nil⟩
  | case2 c s ih =>
    rw [List.cons_append] at h
    obtain ⟨us, rfl, hrest⟩ := h.exists_read (hmoved (c :: s))
    by_cases hhead : ∃ q, (Token.read c s).1 = some (.unclosed q)
    · -- the lexer would already stand behind what follows the blank
      obtain ⟨q, hq⟩ := hhead
      exact absurd hrest.suffix.length_le (Nat.not_le_of_lt (length_lt_of_unclosed hq hx))
    · have hapart : Apart (' ' :: x) := apart_of_isBlank (by simp [Text.isBlank])
      rw [Token.read_append (not_exists.mp hhead) hapart] at hrest ⊢
      obtain ⟨hclosed, rfl⟩ := ih hrest
      refine ⟨fun q hq => ?_, rfl⟩
      rcases List.mem_append.mp hq with hq | hq
      · exact hhead ⟨q, Option.mem_toList.mp hq⟩
      · exact hclosed q hq

end SqlAssembly.Sql

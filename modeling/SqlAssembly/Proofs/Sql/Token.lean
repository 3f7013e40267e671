import Mathlib.Data.List.TakeWhile
import SqlAssembly.Proofs.Text.Blank
import SqlAssembly.Text.Quoted
import SqlAssembly.Text.WordChar

namespace SqlAssembly.Sql

/-!
# Tokens of SQL text

A lexer for the text of statements.  A name between double quotes and a string between
apostrophes are one token each, with the quotes inside doubled; blanks separate tokens and are
none themselves.

* `Token`, `tokens` — the tokens of a text;
* `Closed` — every quote that is opened is closed;
* `Apart`, `Delimited` — no token goes on with the text, because of its first character;
* `tokens_append_apart`, `tokens_append` — a closed text has its own tokens, whatever such text
  follows.
-/

/-- A token of SQL text. -/
inductive Token where
  /-- A name between double quotes. -/
  | name (content : List Char)
  /-- A string between apostrophes. -/
  | string (content : List Char)
  /-- A dollar sign with the digits behind it. -/
  | placeholder (digits : List Char)
  /-- A maximal run of word characters: a keyword, a function name or a number. -/
  | word (letters : List Char)
  /-- Any other character. -/
  | symbol (c : Char)
  /-- A quote that is never closed, with everything behind it. -/
  | unclosed (quote : Char)
  deriving DecidableEq, Repr

/-- The token of what stands between two quotes. -/
def Token.ofQuoted (quote : Char) (content : List Char) : Token :=
  if quote = '"' then .name content else .string content

/-! ### Spans at the end of a text -/

/-- No word, number, placeholder or quoted text goes on with the text. -/
def Apart (s : List Char) : Prop :=
  ∀ c ∈ s.head?, c.isDigit = false ∧ Text.isWordChar c = false ∧ c ≠ '"' ∧ c ≠ '\''

/-- The characters that end a word, a number, a placeholder or a quoted text before them. -/
def isDelimiter (c : Char) : Bool := c == ' ' || c == ',' || c == '(' || c == ')' || c == '.'

/-- The text is empty or begins with a delimiter. -/
def Delimited (s : List Char) : Prop := ∀ c ∈ s.head?, isDelimiter c = true

theorem eq_of_isDelimiter {c : Char} (h : isDelimiter c = true) :
    c = ' ' ∨ c = ',' ∨ c = '(' ∨ c = ')' ∨ c = '.' := by
  simpa [isDelimiter, or_assoc] using h

@[simp] theorem delimited_nil : Delimited [] := by simp [Delimited]

theorem delimited_cons {c : Char} (s : List Char) (h : isDelimiter c = true) :
    Delimited (c :: s) := by
  simpa [Delimited] using h

theorem Delimited.append {s rest : List Char} (hs : Delimited s) (hr : Delimited rest) :
    Delimited (s ++ rest) := by
  cases s with
  | nil => exact hr
  | cons c s => simpa [Delimited] using hs

/-- No token goes on with a delimiter. -/
theorem Delimited.apart {s : List Char} (h : Delimited s) : Apart s := by
  intro c hc
  rcases eq_of_isDelimiter (h c hc) with rfl | rfl | rfl | rfl | rfl <;> decide

/-- Nothing goes on with a blank. -/
theorem apart_of_isBlank {s : List Char} (h : ∀ c ∈ s.head?, Text.isBlank c = true) :
    Apart s := by
  intro c hc
  have hblank := h c hc
  refine ⟨Bool.eq_false_iff.mpr fun hdigit => ?_, Text.isWordChar_of_isBlank hblank, ?_, ?_⟩
  · simp only [Char.isDigit, Bool.and_eq_true, decide_eq_true_eq, ge_iff_le,
      UInt32.le_iff_toNat_le] at hdigit
    -- no blank is among the codes of the digits
    have hcode : 48 ≤ c.toNat ∧ c.toNat ≤ 57 := hdigit
    simp only [Text.isBlank, Bool.or_eq_true, Bool.and_eq_true, decide_eq_true_eq,
      beq_iff_eq] at hblank
    omega
  · rintro rfl
    revert hblank
    decide
  · rintro rfl
    revert hblank
    decide

/-- A run of characters ends where a text begins that it cannot go on with. -/
theorem takeWhile_append_apart {p : Char → Bool} (s : List Char) {rest : List Char}
    (hr : ∀ c ∈ rest.head?, p c = false) : (s ++ rest).takeWhile p = s.takeWhile p := by
  induction s with
  | nil =>
    cases rest with
    | nil => rfl
    | cons c rest => simp [hr c rfl]
  | cons c s ih => simp only [List.cons_append, List.takeWhile_cons, ih]

/-- What stands behind a run of characters goes on with the text that follows. -/
theorem dropWhile_append_apart {p : Char → Bool} (s : List Char) {rest : List Char}
    (hr : ∀ c ∈ rest.head?, p c = false) : (s ++ rest).dropWhile p = s.dropWhile p ++ rest := by
  induction s with
  | nil =>
    cases rest with
    | nil => rfl
    | cons c rest => simp [hr c rfl]
  | cons c s ih =>
    simp only [List.cons_append, List.dropWhile_cons, ih]
    split <;> rfl

/-! ### The lexer -/

/-- The token that begins with a character, unless that is a blank, and what follows it. -/
def Token.read (c : Char) (s : List Char) : Option Token × List Char :=
  if Text.isBlank c then (none, s)
  else if c = '"' ∨ c = '\'' then
    match Text.closeQuote c s with
    | some r => (some (.ofQuoted c r.1), r.2)
    | none => (some (.unclosed c), [])
  else if c = '$' ∧ s.takeWhile Char.isDigit ≠ [] then
    (some (.placeholder (s.takeWhile Char.isDigit)), s.dropWhile Char.isDigit)
  else if Text.isWordChar c then
    (some (.word (c :: s.takeWhile Text.isWordChar)), s.dropWhile Text.isWordChar)
  else (some (.symbol c), s)

/-- Behind a token stands an end of the text. -/
theorem Token.read_suffix (c : Char) (s : List Char) : (read c s).2 <:+ s := by
  unfold read
  split
  · exact List.suffix_rfl
  split
  · split
    · next r h =>
      -- the quoted text is what was read, with its quotes doubled and the closing quote behind
      rw [Text.eq_doubled_of_closeQuote h]
      exact ⟨Text.doubled c r.1 ++ [c], by simp⟩
    · exact List.nil_suffix
  split
  · exact List.dropWhile_suffix _
  split
  · exact List.dropWhile_suffix _
  · exact List.suffix_rfl

/-- The tokens of a text. -/
def tokens (s : List Char) : List Token :=
  match s with
  | [] => []
  | c :: s => (Token.read c s).1.toList ++ tokens (Token.read c s).2
termination_by s.length
decreasing_by
  have := (Token.read_suffix c s).length_le
  simp only [List.length_cons]
  omega

@[simp] theorem tokens_nil : tokens [] = [] := by rw [tokens.eq_def]

theorem tokens_cons (c : Char) (s : List Char) :
    tokens (c :: s) = (Token.read c s).1.toList ++ tokens (Token.read c s).2 := by
  rw [tokens.eq_def]

@[simp] theorem tokens_blank {c : Char} (s : List Char) (hc : Text.isBlank c = true) :
    tokens (c :: s) = tokens s := by
  rw [tokens_cons, Token.read, if_pos hc]
  rfl

/-- What stands between two quotes is one token. -/
theorem tokens_quote {q : Char} {s : List Char} {r : List Char × List Char}
    (hq : q = '"' ∨ q = '\'') (h : Text.closeQuote q s = some r) :
    tokens (q :: s) = .ofQuoted q r.1 :: tokens r.2 := by
  have hb : Text.isBlank q = false := by rcases hq with rfl | rfl <;> decide
  rw [tokens_cons, Token.read, if_neg (by simp [hb]), if_pos hq, h]
  rfl

/-- A dollar sign and the digits behind it are one token. -/
theorem tokens_dollar {s : List Char} (h : s.takeWhile Char.isDigit ≠ []) :
    tokens ('$' :: s)
      = .placeholder (s.takeWhile Char.isDigit) :: tokens (s.dropWhile Char.isDigit) := by
  rw [tokens_cons, Token.read, if_neg (by decide), if_neg (by decide), if_pos ⟨rfl, h⟩]
  rfl

/-- The characters that can only begin a word. -/
def isWordHead (c : Char) : Bool :=
  Text.isWordChar c && !Text.isBlank c && c != '"' && c != '\'' && c != '$'

/-- A run of word characters is one token. -/
theorem tokens_word {c : Char} (s : List Char) (hc : isWordHead c = true) :
    tokens (c :: s)
      = .word (c :: s.takeWhile Text.isWordChar) :: tokens (s.dropWhile Text.isWordChar) := by
  simp only [isWordHead, Bool.and_eq_true, Bool.not_eq_true', bne_iff_ne, ne_eq] at hc
  obtain ⟨⟨⟨⟨hw, hb⟩, hn⟩, ha⟩, hd⟩ := hc
  rw [tokens_cons, Token.read, if_neg (by simp [hb]), if_neg (by simp [hn, ha]),
    if_neg (by simp [hd]), if_pos hw]
  rfl

/-- The characters that are always tokens of their own. -/
def isSymbol (c : Char) : Bool :=
  !Text.isWordChar c && !Text.isBlank c && c != '"' && c != '\'' && c != '$'

/-- Any other character is a token by itself. -/
theorem tokens_symbol {c : Char} (s : List Char) (hc : isSymbol c = true) :
    tokens (c :: s) = .symbol c :: tokens s := by
  simp only [isSymbol, Bool.and_eq_true, Bool.not_eq_true', bne_iff_ne, ne_eq] at hc
  obtain ⟨⟨⟨⟨hw, hb⟩, hn⟩, ha⟩, hd⟩ := hc
  rw [tokens_cons, Token.read, if_neg (by simp [hb]), if_neg (by simp [hn, ha]),
    if_neg (by simp [hd]), if_neg (by simp [hw])]
  rfl

/-! ### Texts one after the other -/

/-- A token ends where a text begins that it cannot go on with, unless it is a quote that is never
closed. -/
theorem Token.read_append {c : Char} {s rest : List Char}
    (hc : ∀ q, (read c s).1 ≠ some (.unclosed q)) (hr : Apart rest) :
    read c (s ++ rest) = ((read c s).1, (read c s).2 ++ rest) := by
  have htake := takeWhile_append_apart s fun c hc => (hr c hc).1
  have hdrop := dropWhile_append_apart s fun c hc => (hr c hc).1
  have htake' := takeWhile_append_apart s fun c hc => (hr c hc).2.1
  have hdrop' := dropWhile_append_apart s fun c hc => (hr c hc).2.1
  unfold read at hc ⊢
  -- digits and word characters stop before what follows; only quotes are left to look at
  rw [htake, hdrop, htake', hdrop']
  by_cases hb : Text.isBlank c = true
  · rw [if_pos hb, if_pos hb]
  rw [if_neg hb] at hc ⊢
  rw [if_neg hb]
  by_cases hq : c = '"' ∨ c = '\''
  · rw [if_pos hq] at hc ⊢
    rw [if_pos hq]
    -- what follows begins with no quote, so the quoted text still ends where it did
    have hne : rest.head? ≠ some c := by
      intro h
      rcases hq with rfl | rfl
      · exact (hr _ h).2.2.1 rfl
      · exact (hr _ h).2.2.2 rfl
    cases h : Text.closeQuote c s with
    | some r => rw [Text.closeQuote_append h hne]
    | none => exact absurd rfl (h ▸ hc c)
  · rw [if_neg hq, if_neg hq]
    split
    · rfl
    split <;> rfl

/-- Every quote that is opened is closed. -/
def Closed (s : List Char) : Prop := ∀ q, Token.unclosed q ∉ tokens s

/-- The tokens of a closed text do not depend on what follows, as long as its last token cannot go
on with that. -/
theorem tokens_append_apart {s rest : List Char} (hs : Closed s) (hr : Apart rest) :
    tokens (s ++ rest) = tokens s ++ tokens rest := by
  unfold Closed at hs
  fun_induction tokens s with
  | case1 => rfl
  | case2 c s ih =>
    -- neither the token at the head nor one behind it is a quote left open
    have hhead : ∀ q, (Token.read c s).1 ≠ some (.unclosed q) := by
      intro q h
      exact hs q (by simp [h])
    have htail : ∀ q, Token.unclosed q ∉ tokens (Token.read c s).2 := by
      intro q h
      exact hs q (List.mem_append_right _ h)
    rw [List.cons_append, tokens_cons, Token.read_append hhead hr, ih htail, List.append_assoc]

/-- The tokens of a closed text do not depend on a delimited text that follows. -/
theorem tokens_append {s rest : List Char} (hs : Closed s) (hr : Delimited rest) :
    tokens (s ++ rest) = tokens s ++ tokens rest := tokens_append_apart hs hr.apart

@[simp] theorem closed_nil : Closed [] := by simp [Closed]

theorem Closed.append {s t : List Char} (hs : Closed s) (hd : Delimited t) (ht : Closed t) :
    Closed (s ++ t) := by
  intro q
  rw [tokens_append hs hd, List.mem_append]
  exact not_or_intro (hs q) (ht q)

/-! ### Texts between blanks -/

/-- Blanks in front make no difference. -/
theorem tokens_blanks_append {blanks : List Char} (hb : Text.allBlank blanks = true)
    (s : List Char) : tokens (blanks ++ s) = tokens s := by
  induction blanks with
  | nil => rfl
  | cons c blanks ih =>
    rw [Text.allBlank, List.all_cons, Bool.and_eq_true] at hb
    rw [List.cons_append, tokens_blank _ hb.1, ih hb.2]

theorem tokens_of_allBlank {blanks : List Char} (hb : Text.allBlank blanks = true) :
    tokens blanks = [] := by
  -- a text with nothing behind the blanks
  simpa using tokens_blanks_append hb []

/-- No token goes on with blanks, or with what stands behind none. -/
theorem apart_blanks_append {blanks s : List Char} (hb : Text.allBlank blanks = true)
    (hs : Apart s) : Apart (blanks ++ s) := by
  cases blanks with
  | nil => exact hs
  | cons c blanks =>
    rw [Text.allBlank, List.all_cons, Bool.and_eq_true] at hb
    refine apart_of_isBlank fun d hd => ?_
    obtain rfl := Option.some.inj hd
    exact hb.1

theorem apart_of_allBlank {blanks : List Char} (hb : Text.allBlank blanks = true) :
    Apart blanks := by
  simpa using apart_blanks_append hb (s := []) nofun

/-- Blanks around a closed text make no difference. -/
theorem tokens_padded {before s behind : List Char} (hbefore : Text.allBlank before = true)
    (hbehind : Text.allBlank behind = true) (hs : Closed s) :
    tokens (before ++ (s ++ behind)) = tokens s := by
  rw [tokens_blanks_append hbefore, tokens_append_apart hs (apart_of_allBlank hbehind),
    tokens_of_allBlank hbehind, List.append_nil]

/-- A text that does not begin with a blank has a token. -/
theorem tokens_ne_nil {s : List Char} (h : Text.Trimmed s) : tokens s ≠ [] := by
  obtain ⟨c, hc, hblank⟩ := h.head
  obtain ⟨t, rfl⟩ := List.head?_eq_some_iff.mp hc
  have hread : (Token.read c t).1 ≠ none := by
    rw [Token.read, if_neg (by simp [hblank])]
    -- every branch but that of the blank gives a token
    split
    · split <;> nofun
    split
    · nofun
    split <;> nofun
  obtain ⟨token, htoken⟩ := Option.ne_none_iff_exists'.mp hread
  rw [tokens_cons, htoken]
  exact List.cons_ne_nil token _

/-! ### Texts of one token -/

/-- A quoted name is one token, whatever it contains. -/
@[simp] theorem tokens_name (s : List Char) : tokens (Text.quoted '"' s) = [.name s] := by
  have h : Text.closeQuote '"' (Text.doubled '"' s ++ ['"']) = some (s, []) :=
    Text.closeQuote_doubled '"' s (by simp)
  rw [Text.quoted, List.cons_append, tokens_quote (.inl rfl) h]
  simp [Token.ofQuoted]

/-- A literal is one token, whatever it contains. -/
@[simp] theorem tokens_string (s : List Char) : tokens (Text.quoted '\'' s) = [.string s] := by
  have h : Text.closeQuote '\'' (Text.doubled '\'' s ++ ['\'']) = some (s, []) :=
    Text.closeQuote_doubled '\'' s (by simp)
  rw [Text.quoted, List.cons_append, tokens_quote (.inr rfl) h]
  simp [Token.ofQuoted]

/-- Word characters alone are one word. -/
theorem tokens_oneWord {c : Char} {s : List Char} (hc : isWordHead c = true)
    (hs : ∀ d ∈ s, Text.isWordChar d = true) : tokens (c :: s) = [.word (c :: s)] := by
  rw [tokens_word s hc, List.takeWhile_eq_self_iff.mpr hs, List.dropWhile_eq_nil_iff.mpr hs,
    tokens_nil]

/-- A dollar sign with digits is one placeholder. -/
theorem tokens_placeholder {ds : List Char} (hne : ds ≠ [])
    (hds : ∀ d ∈ ds, d.isDigit = true) : tokens ('$' :: ds) = [.placeholder ds] := by
  have htake := List.takeWhile_eq_self_iff.mpr hds
  rw [tokens_dollar (by rwa [htake]), htake, List.dropWhile_eq_nil_iff.mpr hds, tokens_nil]

/-! ### Where tokens come from -/

/-- Every token was read at some character of the text. -/
theorem exists_read_of_mem_tokens {s : List Char} {t : Token} (ht : t ∈ tokens s) :
    ∃ c ∈ s, ∃ s', (Token.read c s').1 = some t := by
  fun_induction tokens s with
  | case1 => cases ht
  | case2 c s ih =>
    rcases List.mem_append.mp ht with ht | ht
    · exact ⟨c, List.mem_cons_self, s, Option.mem_toList.mp ht⟩
    · obtain ⟨d, hd, hread⟩ := ih ht
      exact ⟨d, List.mem_cons_of_mem _ ((Token.read_suffix c s).subset hd), hread⟩

/-- The characters that are neither quotes, dollar signs nor parentheses. -/
def isPlain (c : Char) : Bool :=
  c != '"' && c != '\'' && c != '$' && c != '(' && c != ')'

/-- A plain character begins a word, or is a symbol. -/
theorem Token.read_plain {c : Char} {s : List Char} {t : Token} (hc : isPlain c = true)
    (h : (read c s).1 = some t) : (∃ w, t = .word w) ∨ t = .symbol c := by
  simp only [isPlain, Bool.and_eq_true, bne_iff_ne, ne_eq] at hc
  obtain ⟨⟨⟨⟨hn, ha⟩, hd⟩, -⟩, -⟩ := hc
  unfold read at h
  split at h
  · cases h
  -- without quotes and dollar signs only words and symbols are left
  rw [if_neg (not_or_intro hn ha), if_neg (fun hdollar => hd hdollar.1)] at h
  split at h
  · exact .inl ⟨_, (Option.some.inj h).symm⟩
  · exact .inr (Option.some.inj h).symm

/-- A plain text has words and plain symbols only. -/
theorem word_or_symbol_of_plain {s : List Char} (hs : s.all isPlain = true) {t : Token}
    (ht : t ∈ tokens s) : (∃ w, t = .word w) ∨ ∃ c, isPlain c = true ∧ t = .symbol c := by
  obtain ⟨c, hc, s', hread⟩ := exists_read_of_mem_tokens ht
  have hplain : isPlain c = true := List.all_eq_true.mp hs c hc
  rcases Token.read_plain hplain hread with hw | hsym
  · exact .inl hw
  · exact .inr ⟨c, hplain, hsym⟩

/-- A plain text has no quotes to close. -/
theorem closed_of_plain {s : List Char} (hs : s.all isPlain = true) : Closed s := by
  intro q hq
  rcases word_or_symbol_of_plain hs hq with ⟨w, h⟩ | ⟨c, -, h⟩ <;> cases h

/-- Keywords and punctuation behind which a new token always begins. -/
def isGap (s : List Char) : Bool := s.all isPlain && s.getLast?.any isDelimiter

/-- Behind a gap a new token begins. -/
theorem tokens_gap {g : List Char} (hg : isGap g = true) (s : List Char) :
    tokens (g ++ s) = tokens g ++ tokens s := by
  simp only [isGap, Bool.and_eq_true, Option.any_eq_true] at hg
  obtain ⟨hplain, c, hlast, hc⟩ := hg
  -- the gap is a plain text and the delimiter at its end
  obtain ⟨g, rfl⟩ := List.getLast?_eq_some_iff.mp hlast
  rw [List.all_append, Bool.and_eq_true] at hplain
  have hclosed : Closed g := closed_of_plain hplain.1
  have hd (t : List Char) : Delimited (c :: t) := delimited_cons t hc
  rw [List.append_assoc, List.singleton_append, tokens_append hclosed (hd s),
    tokens_append hclosed (hd []), List.append_assoc]
  congr 1
  -- the delimiter is a blank or a symbol, so it is read alone
  rcases eq_of_isDelimiter hc with rfl | rfl | rfl | rfl | rfl
  · rw [tokens_blank s (by decide), tokens_blank [] (by decide), tokens_nil, List.nil_append]
  all_goals
    rw [tokens_symbol s (by decide), tokens_symbol [] (by decide), tokens_nil]
    rfl

/-- A gap that begins with a delimiter keeps the text in front apart. -/
theorem delimited_gap_append {g : List Char} (hg : isGap g = true) (hd : Delimited g)
    (s : List Char) : Delimited (g ++ s) := by
  cases g with
  | nil => cases hg
  | cons c g => exact delimited_cons _ (hd c rfl)

/-- Texts with a separator between them have their own tokens and those of the separator. -/
theorem tokens_intercalate {g : List Char} (hg : isGap g = true) (hd : Delimited g)
    {texts : List (List Char)} (h : ∀ s ∈ texts, Closed s) :
    tokens (g.intercalate texts) = (tokens g).intercalate (texts.map tokens) := by
  induction texts with
  | nil => simp
  | cons s texts ih =>
    rw [List.forall_mem_cons] at h
    cases texts with
    | nil => simp
    | cons t texts =>
      rw [List.intercalate_cons_cons, List.append_assoc,
        tokens_append h.1 (delimited_gap_append hg hd _), tokens_gap hg, ih h.2]
      simp only [List.map_cons, List.intercalate_cons_cons, List.append_assoc]

/-- A closed text stays closed behind a gap. -/
theorem Closed.gap {g s : List Char} (hg : isGap g = true) (hs : Closed s) : Closed (g ++ s) := by
  intro q
  rw [tokens_gap hg, List.mem_append]
  have hplain : g.all isPlain = true := (Bool.and_eq_true _ _ |>.mp hg).1
  exact not_or_intro (closed_of_plain hplain q) (hs q)

/-- Closed texts with a separator between them are closed. -/
theorem Closed.intercalate {g : List Char} (hg : isGap g = true) (hd : Delimited g)
    {texts : List (List Char)} (h : ∀ s ∈ texts, Closed s) : Closed (g.intercalate texts) := by
  induction texts with
  | nil => simp
  | cons s texts ih =>
    rw [List.forall_mem_cons] at h
    cases texts with
    | nil => simpa using h.1
    | cons t texts =>
      rw [List.intercalate_cons_cons, List.append_assoc]
      exact h.1.append (delimited_gap_append hg hd _) (Closed.gap hg (ih h.2))

end SqlAssembly.Sql

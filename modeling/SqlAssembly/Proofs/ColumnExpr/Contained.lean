import Mathlib.Data.List.Chain
import SqlAssembly.Proofs.ColumnExpr.Grammar
import SqlAssembly.Proofs.Sql.Phrase

namespace SqlAssembly.Grammar

/-!
# Quoted expressions are contained

What the grammar of quoted expressions generates cannot reach beyond its own text: outside of
quotes it neither ends a statement nor begins a comment, and it leaves nothing open.

* `Contained` — the property, on the tokens of a text;
* `Harmless` — tokens that make up such texts, in a form that holds of the parts too;
* `harmless_of_generates` — by induction on the grammar;
* `contained_of_generates`, `contained_of_isTable`.
-/

open Sql

/-! ### The property -/

/-- Outside of quotes, nothing ends a statement, begins a comment or is left open. -/
structure Contained (s : List Char) : Prop where
  closed : Closed s
  balanced : Balanced (tokens s)
  noTerminator : .symbol ';' ∉ tokens s
  noLineComment : ¬ [.symbol '-', .symbol '-'] <:+: tokens s
  noBlockComment : ¬ [.symbol '/', .symbol '*'] <:+: tokens s

/-- The tokens of quoted expressions. -/
def isTame : Token → Bool
  | .name _ | .string _ | .word _ => true
  | .symbol c => c == '(' || c == ')' || c == ',' || c == '.' || c == '*' || c == '-'
  | .placeholder _ | .unclosed _ => false

/-- Two tokens in a row are not both a minus. -/
def NotDashes (t u : Token) : Prop := t = .symbol '-' → u ≠ .symbol '-'

/-- Tokens of quoted expressions with parentheses that match and without two minus signs in a
row, not even across the end. -/
structure Harmless (ts : List Token) : Prop where
  tame : ∀ t ∈ ts, isTame t = true
  balanced : Balanced ts
  chain : ts.IsChain NotDashes
  last : ∀ t ∈ ts.getLast?, t ≠ .symbol '-'

namespace Harmless

variable {ts us : List Token}

theorem nil : Harmless [] := ⟨by simp, balanced_nil, by simp, by simp⟩

/-- One token is, if it is tame and neither a parenthesis nor a minus. -/
theorem single {t : Token} (htame : isTame t = true) (hnest : Balanced [t])
    (hdash : t ≠ .symbol '-') : Harmless [t] :=
  ⟨by simpa using htame, hnest, by simp, by simpa using hdash⟩

/-- Harmless tokens in a row are harmless, since none of them ends with a minus. -/
theorem append (ht : Harmless ts) (hu : Harmless us) : Harmless (ts ++ us) where
  tame := by
    intro t h
    rcases List.mem_append.mp h with h | h
    · exact ht.tame t h
    · exact hu.tame t h
  balanced := ht.balanced.append hu.balanced
  chain := by
    rw [List.isChain_append]
    refine ⟨ht.chain, hu.chain, ?_⟩
    -- the last token before is no minus, whatever comes behind
    intro t hlast u _ hdash
    exact absurd hdash (ht.last t hlast)
  last := by
    intro t h
    rw [List.getLast?_append] at h
    cases hlast : us.getLast? with
    | none =>
      rw [hlast] at h
      exact ht.last t h
    | some u =>
      rw [hlast] at h
      obtain rfl := Option.some.inj h
      exact hu.last u hlast

/-- Harmless tokens with harmless ones between them are harmless. -/
theorem intercalate {sep : List Token} (hsep : Harmless sep) {tss : List (List Token)}
    (h : ∀ ts ∈ tss, Harmless ts) : Harmless (sep.intercalate tss) := by
  induction tss with
  | nil => exact nil
  | cons ts tss ih =>
    rw [List.forall_mem_cons] at h
    cases tss with
    | nil => simpa using h.1
    | cons us tss =>
      rw [List.intercalate_cons_cons]
      exact (h.1.append hsep).append (ih h.2)

/-- The parentheses around harmless tokens are no minus, so nothing changes at either end. -/
theorem wrap (h : Harmless ts) : Harmless (.symbol '(' :: ts ++ [.symbol ')']) where
  tame := by
    intro t ht
    rw [List.cons_append, List.mem_cons, List.mem_append, List.mem_singleton] at ht
    rcases ht with rfl | ht | rfl
    · rfl
    · exact h.tame t ht
    · rfl
  balanced := h.balanced.wrap
  chain := by
    rw [List.isChain_append]
    refine ⟨List.isChain_cons.mpr ⟨fun _ _ => nofun, h.chain⟩, by simp, ?_⟩
    intro t _ u hu _
    rw [List.head?_cons, Option.mem_some_iff] at hu
    rw [← hu]
    nofun
  last := by
    intro t ht
    rw [List.getLast?_append, List.getLast?_singleton] at ht
    obtain rfl := Option.some.inj ht
    nofun

/-- Harmless tokens have no quote that is left open. -/
theorem closed {s : List Char} (h : Harmless (tokens s)) : Closed s := by
  intro q hq
  exact absurd (h.tame _ hq) (by simp [isTame])

/-- Harmless tokens have no placeholders. -/
theorem placeholderNames_eq_nil (h : Harmless ts) : placeholderNames ts = [] := by
  apply List.filterMap_eq_nil_iff.mpr
  intro t ht
  have htame := h.tame t ht
  cases t
  case placeholder => cases htame
  all_goals rfl

/-- A text with harmless tokens is contained: tame tokens cannot end a statement or begin a block
comment, and two minus signs are never in a row. -/
theorem contained {s : List Char} (h : Harmless (tokens s)) : Contained s where
  closed := h.closed
  balanced := h.balanced
  noTerminator := fun hmem => absurd (h.tame _ hmem) (by decide)
  noLineComment := by
    -- two minus signs in a row would be neighbours in the chain
    intro hinfix
    have := h.chain.infix hinfix
    simp [NotDashes] at this
  noBlockComment := by
    intro hinfix
    have : Token.symbol '/' ∈ tokens s := hinfix.subset List.mem_cons_self
    exact absurd (h.tame _ this) (by decide)

end Harmless

/-! ### Tokens of the parts -/

/-- Quoted names with points between them are these names and points. -/
theorem tokens_path (names : List (List Char)) :
    tokens (['.'].intercalate (names.map (Text.quoted '"')))
      = [.symbol '.'].intercalate (names.map fun name => [.name name]) := by
  have hclosed : ∀ x ∈ names.map (Text.quoted '"'), Closed x := by
    intro x hx
    obtain ⟨name, -, rfl⟩ := List.mem_map.mp hx
    intro q
    simp
  rw [tokens_intercalate (by decide) (delimited_cons [] (by decide)) hclosed, List.map_map,
    tokens_symbol [] (by decide), tokens_nil]
  congr 1
  exact List.map_congr_left fun name _ => tokens_name name

/-- The tokens of a path are names and points. -/
theorem tokens_of_isPath {n : Nat} {s : List Char} (h : IsPath n s) :
    ∃ names, names ≠ [] ∧
      tokens s = [.symbol '.'].intercalate (names.map fun name => [.name name]) := by
  obtain ⟨names, hne, -, rfl⟩ := h
  exact ⟨names, hne, tokens_path names⟩

/-- The tokens of an alias are a word and a name. -/
theorem tokens_alias (name : List Char) :
    tokens (" AS ".toList ++ Text.quoted '"' name) = [.word ['A', 'S'], .name name] := by
  have has : tokens " AS ".toList = [.word ['A', 'S']] := by
    show tokens [' ', 'A', 'S', ' '] = _
    rw [tokens_blank _ (by decide), tokens_word _ (by decide)]
    show Token.word ['A', 'S'] :: tokens [' '] = _
    rw [tokens_blank _ (by decide), tokens_nil]
  rw [tokens_gap (by decide), has, tokens_name]
  rfl

/-- There may be no alias, and then there are no tokens. -/
theorem tokens_of_isAlias {s : List Char} (h : IsAlias s) :
    tokens s = [] ∨ ∃ name, tokens s = [.word ['A', 'S'], .name name] := by
  rcases h with rfl | ⟨_, ⟨name, rfl⟩, rfl⟩
  · exact .inl tokens_nil
  · exact .inr ⟨name, tokens_alias name⟩

/-- An alias is told from what stands in front of it by its blank. -/
theorem delimited_of_isAlias {s : List Char} (h : IsAlias s) : Delimited s := by
  rcases h with rfl | ⟨name, -, rfl⟩
  · exact delimited_nil
  · exact delimited_cons _ (by decide)

/-- The name of a function begins as a word does. -/
theorem isWordHead_of_isFunctionHead {c : Char} (h : isFunctionHead c = true) :
    isWordHead c = true := by
  have htail : isFunctionTail c = true := by simp [isFunctionTail, h]
  have : (!isFunctionHead c || isWordHead c) = true :=
    of_isFunctionTail (p := fun c => !isFunctionHead c || isWordHead c)
      (by decide) (by decide) (by decide +kernel) htail
  simpa [h] using this

/-- A digit can only begin a word. -/
theorem isWordHead_of_isDigit {c : Char} (h : c.isDigit = true) : isWordHead c = true := by
  have htail : isFunctionTail c = true := by simp [isFunctionTail, h]
  have : (!c.isDigit || isWordHead c) = true :=
    of_isFunctionTail (p := fun c => !c.isDigit || isWordHead c)
      (by decide) (by decide) (by decide +kernel) htail
  simpa [h] using this

/-- The name of a function is one word. -/
theorem tokens_of_isFunctionName {s : List Char} (h : IsFunctionName s) :
    tokens s = [.word s] := by
  obtain ⟨c, cs, rfl, hc, hcs⟩ := h
  exact tokens_oneWord (isWordHead_of_isFunctionHead hc)
    fun d hd => isWordChar_of_isFunctionTail (hcs d hd)

/-- Digits are one word. -/
theorem tokens_of_isDigits {s : List Char} (h : IsDigits s) : tokens s = [.word s] := by
  obtain ⟨hne, hdigits⟩ := h
  cases s with
  | nil => exact absurd rfl hne
  | cons c s =>
    rw [List.forall_mem_cons] at hdigits
    refine tokens_oneWord (isWordHead_of_isDigit hdigits.1) fun d hd => ?_
    exact isWordChar_of_isFunctionTail (by simp [isFunctionTail, hdigits.2 d hd])

/-- A call is its name, the arguments between parentheses, and an alias. -/
theorem tokens_call {function : List Char} {arguments : List (List Char)}
    (hfunction : IsFunctionName function) (harguments : ∀ x ∈ arguments, Closed x)
    (tail : List Char) :
    tokens (function ++ '(' :: ([',', ' '].intercalate arguments ++ ')' :: tail))
      = .word function :: ((.symbol '(' :: [.symbol ','].intercalate (arguments.map tokens) ++
          [.symbol ')']) ++ tokens tail) := by
  have hname := tokens_of_isFunctionName hfunction
  have hnameClosed : Closed function := by
    intro q
    simp [hname]
  have hsep : tokens [',', ' '] = [.symbol ','] := by
    rw [tokens_symbol _ (by decide), tokens_blank _ (by decide), tokens_nil]
  have hlist : tokens ([',', ' '].intercalate arguments)
      = [.symbol ','].intercalate (arguments.map tokens) := by
    rw [tokens_intercalate (by decide) (delimited_cons _ (by decide)) harguments, hsep]
  have hlistClosed : Closed ([',', ' '].intercalate arguments) :=
    Closed.intercalate (by decide) (delimited_cons _ (by decide)) harguments
  -- parentheses and commas are delimiters, so every part keeps its own tokens
  rw [tokens_append hnameClosed (delimited_cons _ (by decide)), hname,
    tokens_symbol _ (by decide), tokens_append hlistClosed (delimited_cons _ (by decide)), hlist,
    tokens_symbol _ (by decide)]
  simp

/-- The tokens of a number: a minus, the digits, and the digits of the fraction. -/
theorem tokens_of_isNumber {s : List Char} (h : IsNumber s) :
    ∃ sign, (sign = [] ∨ sign = [.symbol '-']) ∧ ∃ whole,
      tokens s = sign ++ [.word whole] ∨
        ∃ places, tokens s = sign ++ [.word whole, .symbol '.', .word places] := by
  obtain ⟨sign, whole, hsign, hwhole, hs⟩ := h
  -- a minus is a token of its own, whatever follows it
  have hminus : ∀ r : List Char, ∃ ts, (ts = [] ∨ ts = [.symbol '-']) ∧
      tokens (sign ++ r) = ts ++ tokens r := by
    intro r
    rcases hsign with rfl | rfl
    · exact ⟨[], .inl rfl, rfl⟩
    · exact ⟨_, .inr rfl, tokens_symbol r (by decide)⟩
  rcases hs with rfl | ⟨places, hplaces, rfl⟩
  · obtain ⟨ts, hts, htokens⟩ := hminus whole
    exact ⟨ts, hts, whole, .inl (by rw [htokens, tokens_of_isDigits hwhole])⟩
  · obtain ⟨ts, hts, htokens⟩ := hminus (whole ++ '.' :: places)
    have hclosed : Closed whole := by
      intro q
      simp [tokens_of_isDigits hwhole]
    refine ⟨ts, hts, whole, .inr ⟨places, ?_⟩⟩
    rw [htokens, tokens_append hclosed (delimited_cons _ (by decide)), tokens_of_isDigits hwhole,
      tokens_symbol _ (by decide), tokens_of_isDigits hplaces]
    rfl

/-! ### Whole expressions -/

/-- An alias is harmless. -/
theorem harmless_of_isAlias {s : List Char} (h : IsAlias s) : Harmless (tokens s) := by
  rcases tokens_of_isAlias h with htokens | ⟨name, htokens⟩
  · rw [htokens]
    exact .nil
  · rw [htokens]
    have has : Harmless [.word ['A', 'S']] := .single rfl rfl nofun
    have hname : Harmless [.name name] := .single rfl rfl nofun
    exact has.append hname

/-- A path is harmless: there is no minus among names and points. -/
theorem harmless_of_isPath {n : Nat} {s : List Char} (h : IsPath n s) : Harmless (tokens s) := by
  obtain ⟨names, -, htokens⟩ := tokens_of_isPath h
  rw [htokens]
  have hpoint : Harmless [.symbol '.'] := .single rfl rfl (by decide)
  refine hpoint.intercalate ?_
  intro ts hts
  obtain ⟨name, -, rfl⟩ := List.mem_map.mp hts
  exact .single rfl rfl nofun

/-- A number is harmless, although it may begin with a minus. -/
theorem harmless_of_isNumber {s : List Char} (h : IsNumber s) : Harmless (tokens s) := by
  -- a minus is the first token, so a digit always follows it
  obtain ⟨sign, hsign, whole, htokens | ⟨places, htokens⟩⟩ := tokens_of_isNumber h
  · rw [htokens]
    rcases hsign with rfl | rfl
    · exact .single rfl rfl nofun
    · exact ⟨by simp [isTame], rfl, by simp [NotDashes], by simp⟩
  · rw [htokens]
    rcases hsign with rfl | rfl
    · exact ⟨by simp [isTame], rfl, by simp [NotDashes], by simp⟩
    · exact ⟨by simp [isTame], rfl, by simp [NotDashes], by simp⟩

/-- The tokens between the parentheses of a call are harmless if those of the arguments are. -/
theorem harmless_arguments {arguments : List (List Char)}
    (h : ∀ x ∈ arguments, Harmless (tokens x)) :
    Harmless ([.symbol ','].intercalate (arguments.map tokens)) := by
  have hcomma : Harmless [.symbol ','] := .single rfl rfl (by decide)
  refine hcomma.intercalate ?_
  intro ts hts
  obtain ⟨x, hx, rfl⟩ := List.mem_map.mp hts
  exact h x hx

/-- Whatever the grammar generates is harmless. -/
theorem harmless_of_generates {part : Part} {s : List Char} (h : Generates part s) :
    Harmless (tokens s) := by
  induction h with
  | star =>
    rw [tokens_symbol [] (by decide), tokens_nil]
    exact .single rfl rfl (by decide)
  | column hpath htail =>
    have hp := harmless_of_isPath hpath
    rw [tokens_append hp.closed (delimited_of_isAlias htail)]
    exact hp.append (harmless_of_isAlias htail)
  -- the induction hypothesis is about each of the arguments
  | @call function tail arguments hfunction _ htail ih =>
    rw [tokens_call hfunction (fun x hx => (ih x hx).closed)]
    have hname : Harmless [.word function] := .single rfl rfl nofun
    exact hname.append ((harmless_arguments ih).wrap.append (harmless_of_isAlias htail))
  | number h => exact harmless_of_isNumber h
  | string h =>
    obtain ⟨content, rfl⟩ := h
    rw [tokens_string]
    exact .single rfl rfl nofun
  | nested _ ih => exact ih

/-- A table is harmless, as a column is. -/
theorem harmless_of_isTable {s : List Char} (h : IsTable s) : Harmless (tokens s) := by
  obtain ⟨path, tail, hpath, htail, rfl⟩ := h
  have hp := harmless_of_isPath hpath
  rw [tokens_append hp.closed (delimited_of_isAlias htail)]
  exact hp.append (harmless_of_isAlias htail)

/-- A quoted name is harmless. -/
theorem harmless_of_isName {s : List Char} (h : IsName s) : Harmless (tokens s) := by
  obtain ⟨name, rfl⟩ := h
  rw [tokens_name]
  exact .single rfl rfl nofun

/-- Quoting neither leaves the grammar nor lets anything out of the quotes, whatever the text. -/
theorem quoted_contained :
    (∀ expr sql, quoteColumn expr = .ok sql →
      Generates .expression sql.toList ∧ Contained sql.toList) ∧
    (∀ expr sql, QualifiedName.quoteTable expr = .ok sql →
      IsTable sql.toList ∧ Contained sql.toList) := by
  constructor
  · intro expr sql h
    have hgenerates := generates_of_quoteColumn h
    exact ⟨hgenerates, (harmless_of_generates hgenerates).contained⟩
  · intro expr sql h
    have htable := isTable_of_quoteTable h
    exact ⟨htable, (harmless_of_isTable htable).contained⟩

/-- A literal and two names that would end the statement or begin a comment if they could. -/
theorem quoted_contained_breakout :
    (Generates .expression "F(G('a;''--', -1.50), *) AS \"x -- \"\"; y\"".toList ∧
      Contained "F(G('a;''--', -1.50), *) AS \"x -- \"\"; y\"".toList) ∧
    (IsTable "\"s\".\"a;/*\" AS \"t\"".toList ∧ Contained "\"s\".\"a;/*\" AS \"t\"".toList) := by
  have hcolumn : quoteColumn "f(g('a;''--', -1.50), *) \"x -- \"\"; y\""
      = .ok "F(G('a;''--', -1.50), *) AS \"x -- \"\"; y\"" := by decide +kernel
  have htable : QualifiedName.quoteTable "s.\"a;/*\" t" = .ok "\"s\".\"a;/*\" AS \"t\"" := by decide +kernel
  exact ⟨quoted_contained.1 _ _ hcolumn, quoted_contained.2 _ _ htable⟩

end SqlAssembly.Grammar

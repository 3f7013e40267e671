import SqlAssembly.Proofs.ColumnExpr.Contained
import SqlAssembly.Proofs.ColumnExpr.Spelling

namespace SqlAssembly

/-!
# Orderly lists of arguments

What a written expression looks like outside of its quotes: all parentheses match, and between two
of the parentheses and commas of a call stands an argument.  The one exception that may be made is a
comma with nothing behind it at the end of a list, so expressions are told here with and without.

* `Argument.Written` — the ways to write an expression, perhaps with a comma behind its arguments;
* `Sql.Quiet` — a text without parentheses and commas of its own;
* `Sql.Orderly` — the property, on the tokens of a text;
* `Argument.Written.orderly` — by induction on the ways to write an expression;
* `Argument.spells_of_written` — without such a comma, it is one of the ways of `Argument.Spells`.
-/

/-! ### Expressions with a comma behind their arguments -/

/-- What stands behind the last argument of a list: nothing, or, if that is let pass, a comma with
blanks. -/
inductive Argument.Overhang (comma : Bool) (pieces : List (List Char)) : List Char → Prop
  | none : Overhang comma pieces []
  | comma {blanks : List Char} : comma = true → pieces ≠ [] → Text.allBlank blanks = true →
    Overhang comma pieces (',' :: blanks)

/-- How an argument of a call may be written, if commas may stand behind the last argument of a list
or not. -/
inductive Argument.Written (comma : Bool) : Argument → List Char → Prop
  | number {s : List Char} : Grammar.IsNumber s → Written comma (.literal (String.ofList s)) s
  | string {s : List Char} : Grammar.IsString s → Written comma (.literal (String.ofList s)) s
  | star : Written comma (.expr .star) ['*']
  | column {name : QualifiedName} {s : List Char} : name.parts.length ≤ 3 →
    QualifiedName.Spells name s → Written comma (.expr (.column name)) s
  | call {function gap pad stray tail : List Char} {slots : List Slot} {alias? : Option Segment} :
    Grammar.IsFunctionName function → Text.allBlank gap = true → Text.allBlank pad = true →
    (∀ slot ∈ slots, slot.Padded) →
    (∀ slot ∈ slots, Written comma slot.argument slot.text) →
    Overhang comma (slots.map Slot.piece) stray → Segment.AliasText alias? tail →
    Written comma
      (.expr (.call (String.ofList (function.map Text.upper)) (slots.map Slot.argument)
        (alias?.map Segment.meaning)))
      (function ++ (gap ++ '(' ::
        (pad ++ [','].intercalate (slots.map Slot.piece) ++ (stray ++ ')' :: tail))))

/-- Whatever can be written without such a comma can be written. -/
theorem Argument.written_of_spells {comma : Bool} {a : Argument} {s : List Char}
    (h : Spells a s) : Written comma a s := by
  induction h with
  | number h => exact .number h
  | string h => exact .string h
  | star => exact .star
  | column hlen h => exact .column hlen h
  | call hfunction hgap hpad hpadded _ htail ih =>
    exact .call hfunction hgap hpad hpadded ih .none htail

namespace Argument

open ArgumentList Grammar

/-- However an argument is written, it separates nothing and leaves nothing open: a comma behind the
arguments of a call stands inside of its parentheses too. -/
theorem Written.keeps {comma : Bool} {a : Argument} {s : List Char} (h : Written comma a s) :
    Keeps 0 s := by
  induction h with
  | number h => exact (Spells.number h).keeps
  | string h => exact (Spells.string h).keeps
  | star => exact Spells.star.keeps
  | column hlen h => exact (Spells.column hlen h).keeps
  | @call function gap pad stray tail slots alias? hfunction hgap hpad hpadded _ hstray htail ih =>
    have hcomma : Keeps 1 stray := by
      cases hstray with
      | none => exact .nil
      | comma _ _ hb => exact (Keeps.comma (by decide)).append (.blanks hb)
    have hlist := ((Keeps.blanks hpad).append (keeps_pieces hpadded ih)).append hcomma
    have hcall := keeps_call hfunction hgap hlist htail
    rwa [List.append_assoc _ stray] at hcall

/-- However an argument is written, it has no blanks at its ends. -/
theorem Written.trimmed {comma : Bool} {a : Argument} {s : List Char} (h : Written comma a s) :
    Text.Trimmed s := by
  cases h with
  | number h => exact (Spells.number h).trimmed
  | string h => exact (Spells.string h).trimmed
  | star => exact Spells.star.trimmed
  | column hlen h => exact (Spells.column hlen h).trimmed
  | @call function gap pad stray tail slots alias? hfunction _ _ _ _ _ htail =>
    have hcall := trimmed_call hfunction gap
      (pad ++ [','].intercalate (slots.map Slot.piece) ++ stray) htail
    rwa [List.append_assoc _ stray] at hcall

/-- An expression begins with a star, a quote or a letter. -/
theorem Written.exists_head {comma : Bool} {e : ColumnExpr} {s : List Char}
    (h : Written comma (.expr e) s) :
    ∃ c t, s = c :: t ∧ (c = '*' ∨ c = '"' ∨ isFunctionHead c = true) := by
  cases h with
  | star => exact Spells.star.exists_head
  | column hlen h => exact (Spells.column hlen h).exists_head
  | call hfunction _ _ _ _ _ _ =>
    obtain ⟨c, cs, rfl, hc, -⟩ := hfunction
    exact ⟨c, _, rfl, .inr (.inr hc)⟩

end Argument

namespace Sql

/-! ### Texts without parentheses and commas -/

/-- The token is neither a parenthesis nor a comma, and no quote is left open. -/
def isQuiet : Token → Bool
  | .symbol c => c != '(' && c != ')' && c != ','
  | .unclosed _ => false
  | _ => true

/-- All tokens of the text are quiet. -/
def Quiet (s : List Char) : Prop := ∀ t ∈ tokens s, isQuiet t = true

namespace Quiet

variable {s t : List Char}

theorem nil : Quiet [] := by simp [Quiet]

theorem closed (h : Quiet s) : Closed s := fun q hq => absurd (h _ hq) (by simp [isQuiet])

/-- Quiet texts stay quiet when one follows the other, if no token grows together from both. -/
theorem append (hs : Quiet s) (hapart : Apart t) (ht : Quiet t) : Quiet (s ++ t) := by
  intro token htoken
  rw [tokens_append_apart hs.closed hapart, List.mem_append] at htoken
  exact htoken.elim (hs token) (ht token)

/-- Blanks in front of a text change nothing. -/
theorem blanks_append {blanks : List Char} (hb : Text.allBlank blanks = true) (hs : Quiet s) :
    Quiet (blanks ++ s) := by
  rwa [Quiet, tokens_blanks_append hb]

/-- A text without quotes, parentheses and commas is quiet. -/
theorem plain (h : ∀ c ∈ s, ArgumentList.isPlain c = true) : Quiet s := by
  intro token htoken
  obtain ⟨c, hc, s', hread⟩ := exists_read_of_mem_tokens htoken
  have hplain := h c hc
  simp only [ArgumentList.isPlain, Bool.and_eq_true, bne_iff_ne, ne_eq] at hplain
  obtain ⟨⟨⟨⟨hcomma, hname⟩, hstring⟩, hopen⟩, hclose⟩ := hplain
  -- the kind of the first token depends on its first character only
  unfold Token.read at hread
  split at hread
  · cases hread
  rw [if_neg (not_or_intro hname hstring)] at hread
  split at hread
  · obtain rfl := Option.some.inj hread
    rfl
  split at hread
  · obtain rfl := Option.some.inj hread
    rfl
  · obtain rfl := Option.some.inj hread
    simp [isQuiet, hcomma, hopen, hclose]

/-- A segment of a name is quiet, whatever is between its quotes. -/
theorem segment {segment : Segment} (h : segment.Proper) : Quiet segment.text := by
  cases segment with
  | quoted name =>
    rw [Quiet, Segment.text, tokens_name]
    simp [isQuiet]
  | bare name => exact plain (Grammar.isPlain_of_bare h)

/-- A path of segments is quiet. -/
theorem path {path : List Segment} (h : ∀ segment ∈ path, segment.Proper) :
    Quiet (['.'].intercalate (path.map Segment.text)) := by
  induction path with
  | nil => exact nil
  | cons first path ih =>
    rw [List.forall_mem_cons] at h
    cases path with
    | nil => simpa using segment h.1
    | cons second path =>
      rw [List.map_cons, List.map_cons, List.intercalate_cons_cons, List.append_assoc]
      have hpoint : ∀ s, Quiet s → Quiet (['.'] ++ s) := by
        intro s hs token htoken
        rw [List.singleton_append, tokens_symbol _ (by decide), List.mem_cons] at htoken
        rcases htoken with rfl | htoken
        · rfl
        · exact hs token htoken
      exact (segment h.1).append (delimited_cons _ (by decide)).apart (hpoint _ (ih h.2))

/-- The text of an alias is quiet. -/
theorem aliasText {alias? : Option Segment} {tail : List Char}
    (h : Segment.AliasText alias? tail) : Quiet tail := by
  cases h with
  | none => exact nil
  | plain _ hb hsegment => exact (segment hsegment).blanks_append hb
  -- the blanks between AS and the name keep them apart
  | @word blanks word gap segment _ hb hword hne hgap hsegment =>
    have hletters : Quiet word := plain fun c hc =>
      Grammar.isPlain_of_isFunctionTail (Grammar.isFunctionTail_of_isKeyword_as hword c hc)
    have hapart : Apart (gap ++ segment.text) := by
      obtain ⟨g, gs, rfl⟩ := List.exists_cons_of_ne_nil hne
      refine apart_of_isBlank fun c hc => ?_
      obtain rfl := Option.some.inj hc
      exact List.all_eq_true.mp hgap g List.mem_cons_self
    exact (hletters.append hapart ((Quiet.segment hsegment).blanks_append hgap)).blanks_append hb

/-- A qualified name is quiet. -/
theorem qualifiedName {name : QualifiedName} (h : QualifiedName.Spells name s) : Quiet s := by
  cases h with
  | segments _ hpath htail =>
    have hblank := @Segment.AliasText.isBlank_head _ _ htail [] rfl
    rw [List.append_nil] at hblank
    exact (path hpath).append (apart_of_isBlank hblank) (aliasText htail)

/-- A string is quiet, whatever it contains. -/
theorem string (h : Grammar.IsString s) : Quiet s := by
  obtain ⟨content, rfl⟩ := h
  rw [Quiet, tokens_string]
  simp [isQuiet]

end Quiet

/-! ### Orderly tokens -/

/-- One token may follow another: there is an argument in front of a comma, and one between a comma
and a closing parenthesis too, unless a comma may stand behind the last argument. -/
def MayFollow (comma : Bool) (t u : Token) : Prop :=
  (u = .symbol ',' → t ≠ .symbol '(' ∧ t ≠ .symbol ',') ∧
    (u = .symbol ')' → comma = false → t ≠ .symbol ',')

/-- Tokens with parentheses that match and without blank positions, neither inside nor at the
ends. -/
structure Orderly (comma : Bool) (ts : List Token) : Prop where
  ne_nil : ts ≠ []
  closed : ∀ q, .unclosed q ∉ ts
  balanced : Balanced ts
  chain : ts.IsChain (MayFollow comma)
  head : ∀ t ∈ ts.head?, t ≠ .symbol ',' ∧ t ≠ .symbol ')'
  last : ∀ t ∈ ts.getLast?, t ≠ .symbol '(' ∧ t ≠ .symbol ','

/-- A quiet token is no parenthesis and no comma. -/
theorem ne_of_isQuiet {t : Token} (h : isQuiet t = true) :
    t ≠ .symbol '(' ∧ t ≠ .symbol ')' ∧ t ≠ .symbol ',' := by
  refine ⟨?_, ?_, ?_⟩
  all_goals
    rintro rfl
    cases h

namespace Orderly

variable {comma : Bool} {ts us : List Token}

/-- Anything may follow what is neither an opening parenthesis nor a comma. -/
theorem mayFollow_last (h : Orderly comma ts) {t : Token} (ht : t ∈ ts.getLast?) (u : Token) :
    MayFollow comma t u :=
  ⟨fun _ => h.last t ht, fun _ _ => (h.last t ht).2⟩

/-- Quiet tokens are orderly, if there are any. -/
theorem of_isQuiet (hne : ts ≠ []) (h : ∀ t ∈ ts, isQuiet t = true) : Orderly comma ts where
  ne_nil := hne
  closed := fun q hq => absurd (h _ hq) (by simp [isQuiet])
  balanced := balanced_of_forall fun t ht =>
    ⟨(ne_of_isQuiet (h t ht)).1, (ne_of_isQuiet (h t ht)).2.1⟩
  chain := by
    refine List.Pairwise.isChain (List.pairwise_of_forall_mem_list fun t ht u _ => ?_)
    obtain ⟨hopen, -, hcomma⟩ := ne_of_isQuiet (h t ht)
    exact ⟨fun _ => ⟨hopen, hcomma⟩, fun _ _ => hcomma⟩
  head := by
    intro t ht
    obtain ⟨-, hclose, hcomma⟩ := ne_of_isQuiet (h t (List.mem_of_mem_head? ht))
    exact ⟨hcomma, hclose⟩
  last := by
    intro t ht
    obtain ⟨hopen, -, hcomma⟩ := ne_of_isQuiet (h t (List.mem_of_mem_getLast? ht))
    exact ⟨hopen, hcomma⟩

/-- Orderly tokens may follow each other directly: neither has a comma or a parenthesis at the end
that the other could complete. -/
theorem append (ht : Orderly comma ts) (hu : Orderly comma us) : Orderly comma (ts ++ us) where
  ne_nil := by simp [ht.ne_nil]
  closed := by
    intro q
    rw [List.mem_append]
    exact not_or_intro (ht.closed q) (hu.closed q)
  balanced := ht.balanced.append hu.balanced
  chain := List.isChain_append.mpr
    ⟨ht.chain, hu.chain, fun _ hlast u _ => ht.mayFollow_last hlast u⟩
  head := by
    rw [List.head?_append_of_ne_nil _ ht.ne_nil]
    exact ht.head
  last := by
    rw [List.getLast?_append_of_ne_nil _ hu.ne_nil]
    exact hu.last

/-- Quiet tokens may stand behind orderly ones, if there are any. -/
theorem append_quiet (ht : Orderly comma ts) (hu : ∀ u ∈ us, isQuiet u = true) :
    Orderly comma (ts ++ us) := by
  rcases eq_or_ne us [] with rfl | hne
  · rwa [List.append_nil]
  · exact ht.append (.of_isQuiet hne hu)

/-- With a comma between them, there is something on both of its sides. -/
theorem append_comma (ht : Orderly comma ts) (hu : Orderly comma us) :
    Orderly comma (ts ++ .symbol ',' :: us) where
  ne_nil := by simp
  closed := by
    intro q
    rw [List.mem_append, List.mem_cons]
    exact not_or_intro (ht.closed q) (not_or_intro nofun (hu.closed q))
  balanced := by
    have hcomma : Balanced [.symbol ','] := rfl
    exact ht.balanced.append (hcomma.append hu.balanced)
  chain := by
    refine List.isChain_append.mpr ⟨ht.chain, List.isChain_cons.mpr ⟨?_, hu.chain⟩,
      fun _ hlast u _ => ht.mayFollow_last hlast u⟩
    -- behind the comma stands neither a comma nor a closing parenthesis
    intro u hhead
    exact ⟨fun h => absurd h (hu.head u hhead).1, fun h => absurd h (hu.head u hhead).2⟩
  head := by
    rw [List.head?_append_of_ne_nil _ ht.ne_nil]
    exact ht.head
  last := by
    rw [List.append_cons, List.getLast?_append_of_ne_nil _ hu.ne_nil]
    exact hu.last

/-- Orderly tokens with commas between them are orderly. -/
theorem intercalate {tss : List (List Token)} (hne : tss ≠ [])
    (h : ∀ ts ∈ tss, Orderly comma ts) : Orderly comma ([.symbol ','].intercalate tss) := by
  induction tss with
  | nil => exact absurd rfl hne
  | cons ts tss ih =>
    rw [List.forall_mem_cons] at h
    cases tss with
    | nil => simpa using h.1
    | cons us tss =>
      rw [List.intercalate_cons_cons, List.append_assoc, List.singleton_append]
      exact h.1.append_comma (ih (List.cons_ne_nil us tss) h.2)

/-- Parentheses may stand around tokens that do not begin with a comma, nor end with one unless that
is let pass. -/
theorem wrap (hclosed : ∀ q, .unclosed q ∉ ts) (hbalanced : Balanced ts)
    (hchain : ts.IsChain (MayFollow comma)) (hhead : ∀ t ∈ ts.head?, t ≠ .symbol ',')
    (hlast : comma = false → ∀ t ∈ ts.getLast?, t ≠ .symbol ',') :
    Orderly comma (.symbol '(' :: ts ++ [.symbol ')']) where
  ne_nil := by simp
  closed := by
    intro q
    rw [List.cons_append, List.mem_cons, List.mem_append, List.mem_singleton]
    exact not_or_intro nofun (not_or_intro (hclosed q) nofun)
  balanced := hbalanced.wrap
  chain := by
    rw [List.cons_append, List.isChain_cons, List.isChain_append]
    -- only the two places next to the parentheses are new
    refine ⟨?_, hchain, by simp, ?_⟩
    · intro u hu
      refine ⟨fun hcomma => ?_, fun _ _ => by decide⟩
      rw [List.head?_append] at hu
      cases hts : ts.head? with
      | none =>
        rw [hts] at hu
        obtain rfl := Option.some.inj hu
        cases hcomma
      | some t =>
        rw [hts] at hu
        obtain rfl := Option.some.inj hu
        exact absurd hcomma (hhead t hts)
    · intro t ht u hu
      rw [List.head?_cons, Option.mem_some_iff] at hu
      subst hu
      exact ⟨nofun, fun _ hcomma => hlast hcomma t ht⟩
  head := by simp
  last := by
    intro t ht
    rw [List.getLast?_concat] at ht
    obtain rfl := Option.some.inj ht
    decide

end Orderly

end Sql

/-! ### Written expressions are orderly -/

namespace Argument

open Sql

/-- The token of what stands behind the last argument. -/
theorem Overhang.tokens_append {comma : Bool} {pieces : List (List Char)} {stray : List Char}
    (h : Overhang comma pieces stray) (s : List Char) :
    tokens (stray ++ ')' :: s) = tokens stray ++ .symbol ')' :: tokens s := by
  cases h with
  | none => rw [List.nil_append, tokens_symbol _ (by decide), tokens_nil, List.nil_append]
  | comma _ _ hb =>
    rw [List.cons_append, tokens_symbol _ (by decide), tokens_symbol _ (by decide),
      tokens_blanks_append hb, tokens_of_allBlank hb, tokens_symbol _ (by decide)]
    rfl

/-- With the parenthesis behind it, it cannot grow together with what is in front. -/
theorem Overhang.delimited {comma : Bool} {pieces : List (List Char)} {stray : List Char}
    (h : Overhang comma pieces stray) (s : List Char) : Delimited (stray ++ ')' :: s) := by
  cases h with
  | none => exact delimited_cons s (by decide)
  | comma _ _ _ => exact delimited_cons _ (by decide)

/-- Between the parentheses of a call, the parentheses match. -/
theorem Overhang.balanced {comma : Bool} {pieces : List (List Char)} {stray : List Char}
    (h : Overhang comma pieces stray) {inner : List Token}
    (hinner : pieces = [] ∧ inner = [] ∨ Orderly comma inner) :
    Balanced (inner ++ tokens stray) := by
  have hstray : Balanced (tokens stray) := by
    cases h with
    | none => rw [tokens_nil]; exact balanced_nil
    | comma _ _ hb => rw [tokens_symbol _ (by decide), tokens_of_allBlank hb]; rfl
  rcases hinner with ⟨-, rfl⟩ | hinner
  · exact hstray
  · exact hinner.balanced.append hstray

/-- Orderly arguments may stand between parentheses, with what stands behind the last of them. -/
theorem Overhang.wrap {comma : Bool} {pieces : List (List Char)} {stray : List Char}
    (h : Overhang comma pieces stray) {inner : List Token}
    (hinner : pieces = [] ∧ inner = [] ∨ Orderly comma inner) :
    Orderly comma (.symbol '(' :: (inner ++ tokens stray) ++ [.symbol ')']) := by
  cases h with
  | none =>
    rw [tokens_nil, List.append_nil]
    rcases hinner with ⟨-, rfl⟩ | hinner
    · exact .wrap (by simp) balanced_nil (by simp) (by simp) (by simp)
    · exact .wrap hinner.closed hinner.balanced hinner.chain (fun t ht => (hinner.head t ht).1)
        fun _ t ht => (hinner.last t ht).2
  | @comma blanks hcomma hne hb =>
    have hinner : Orderly comma inner := hinner.resolve_left fun h => hne h.1
    have htokens : tokens (',' :: blanks) = [.symbol ','] := by
      rw [tokens_symbol _ (by decide), tokens_of_allBlank hb]
    rw [htokens]
    -- the comma is the last token in front of the parenthesis, as is let pass here
    refine .wrap ?_ (hinner.balanced.append rfl) ?_ ?_ (by simp [hcomma])
    · intro q
      rw [List.mem_append, List.mem_singleton]
      exact not_or_intro (hinner.closed q) nofun
    · exact List.isChain_append.mpr
        ⟨hinner.chain, by simp, fun _ hlast u _ => hinner.mayFollow_last hlast u⟩
    · rw [List.head?_append_of_ne_nil _ hinner.ne_nil]
      exact fun t ht => (hinner.head t ht).1

/-- A written call is its name, the arguments between parentheses, and an alias. -/
theorem tokens_written_call {comma : Bool} {function gap pad stray : List Char} {slots : List Slot}
    (hfunction : Grammar.IsFunctionName function) (hgap : Text.allBlank gap = true)
    (hpad : Text.allBlank pad = true) (hpadded : ∀ slot ∈ slots, slot.Padded)
    (hclosed : ∀ slot ∈ slots, Closed slot.text)
    (hstray : Overhang comma (slots.map Slot.piece) stray) (tail : List Char) :
    tokens (function ++ (gap ++ '(' ::
        (pad ++ [','].intercalate (slots.map Slot.piece) ++ (stray ++ ')' :: tail))))
      = .word function :: ((.symbol '(' ::
          ([.symbol ','].intercalate (slots.map fun slot => tokens slot.text) ++ tokens stray) ++
          [.symbol ')']) ++ tokens tail) := by
  have hname := Grammar.tokens_of_isFunctionName hfunction
  have hnameClosed : Closed function := by
    intro q
    simp [hname]
  -- the blanks around the arguments are no tokens
  have htokens : ∀ slot ∈ slots, tokens slot.piece = tokens slot.text := fun slot hslot =>
    tokens_padded (hpadded slot hslot).1 (hpadded slot hslot).2 (hclosed slot hslot)
  have hpieces : ∀ piece ∈ slots.map Slot.piece, Closed piece := by
    intro piece hpiece
    obtain ⟨slot, hslot, rfl⟩ := List.mem_map.mp hpiece
    intro q
    rw [htokens slot hslot]
    exact hclosed slot hslot q
  have hcomma : isGap [','] = true := by decide
  have hlist : tokens ([','].intercalate (slots.map Slot.piece))
      = [.symbol ','].intercalate (slots.map fun slot => tokens slot.text) := by
    rw [tokens_intercalate hcomma (delimited_cons [] (by decide)) hpieces,
      tokens_symbol _ (by decide), tokens_nil, List.map_map]
    congr 1
    exact List.map_congr_left htokens
  have hlistClosed := Closed.intercalate hcomma (delimited_cons [] (by decide)) hpieces
  -- blanks, parentheses and commas are apart, so every part keeps its own tokens
  have hapart : ∀ s, Apart (gap ++ '(' :: s) := fun s =>
    apart_blanks_append hgap (delimited_cons s (by decide)).apart
  rw [tokens_append_apart hnameClosed (hapart _), hname, tokens_blanks_append hgap,
    tokens_symbol _ (by decide), List.append_assoc, tokens_blanks_append hpad,
    Sql.tokens_append hlistClosed (hstray.delimited tail), hlist, hstray.tokens_append]
  simp

/-- The arguments of a list are orderly together, if each of them is. -/
theorem orderly_slots {comma : Bool} {slots : List Slot}
    (h : ∀ slot ∈ slots, Orderly comma (tokens slot.text)) :
    slots.map Slot.piece = [] ∧
        [.symbol ','].intercalate (slots.map fun slot => tokens slot.text) = [] ∨
      Orderly comma ([.symbol ','].intercalate (slots.map fun slot => tokens slot.text)) := by
  rcases eq_or_ne slots [] with rfl | hne
  · exact .inl ⟨rfl, rfl⟩
  · refine .inr (.intercalate (by simpa using hne) fun ts hts => ?_)
    obtain ⟨slot, hslot, rfl⟩ := List.mem_map.mp hts
    exact h slot hslot

/-- However an argument is written, its tokens are orderly. -/
theorem Written.orderly {comma : Bool} {a : Argument} {s : List Char} (h : Written comma a s) :
    Orderly comma (tokens s) := by
  -- all but calls are quiet texts
  have hquiet : ∀ {s : List Char}, Text.Trimmed s → Quiet s → Orderly comma (tokens s) :=
    fun htrimmed hs => .of_isQuiet (tokens_ne_nil htrimmed) hs
  induction h with
  | number h => exact hquiet (Spells.number h).trimmed (.plain (Grammar.isPlain_of_isNumber h))
  | string h => exact hquiet (Spells.string h).trimmed (.string h)
  | star => exact hquiet Spells.star.trimmed (.plain (List.forall_mem_singleton.mpr (by decide)))
  | column hlen h => exact hquiet (Spells.column hlen h).trimmed (.qualifiedName h)
  | @call function gap pad stray tail slots alias? hfunction hgap hpad hpadded _ hstray htail ih =>
    rw [tokens_written_call hfunction hgap hpad hpadded (fun slot hslot => (ih slot hslot).closed)
      hstray]
    have hname : Orderly comma [.word function] :=
      .of_isQuiet (List.cons_ne_nil _ _) (List.forall_mem_singleton.mpr rfl)
    exact hname.append ((hstray.wrap (orderly_slots ih)).append_quiet (Quiet.aliasText htail))

/-- A list stands in what it is joined to. -/
theorem infix_intercalate {α : Type} {sep x : List α} {xs : List (List α)} (h : x ∈ xs) :
    x <:+: sep.intercalate xs := by
  induction xs with
  | nil => cases h
  | cons y ys ih =>
    cases ys with
    | nil =>
      obtain rfl := List.mem_singleton.mp h
      exact ⟨[], [], by simp⟩
    | cons z ys =>
      rw [List.intercalate_cons_cons]
      rcases List.mem_cons.mp h with rfl | h
      · rw [List.append_assoc]
        exact (List.prefix_append x _).isInfix
      · exact (ih h).trans (List.suffix_append _ _).isInfix

/-- Without a comma in front of a closing parenthesis, an expression is written as it may be. -/
theorem spells_of_written {comma : Bool} {a : Argument} {s : List Char} (h : Written comma a s)
    (hcomma : ¬ [.symbol ',', .symbol ')'] <:+: tokens s) : Spells a s := by
  induction h with
  | number h => exact .number h
  | string h => exact .string h
  | star => exact .star
  | column hlen h => exact .column hlen h
  | @call function _ _ _ tail slots _ hfunction hgap hpad hpadded hwritten hstray htail ih =>
    rw [tokens_written_call hfunction hgap hpad hpadded
      (fun slot hslot => (hwritten slot hslot).orderly.closed) hstray] at hcomma
    cases hstray with
    | none =>
      refine .call hfunction hgap hpad hpadded (fun slot hslot => ih slot hslot ?_) htail
      -- the tokens of an argument are among those of the call
      intro hpair
      have hslotTokens : tokens slot.text
          <:+: [.symbol ','].intercalate (slots.map fun slot => tokens slot.text) :=
        infix_intercalate (List.mem_map.mpr ⟨slot, hslot, rfl⟩)
      refine hcomma (hpair.trans (hslotTokens.trans ?_))
      exact ⟨[.word function, .symbol '('], .symbol ')' :: tokens tail, by simp⟩
    | @comma blanks _ hne hb =>
      -- the comma that was let pass stands in front of the parenthesis
      refine absurd ?_ hcomma
      rw [tokens_symbol _ (by decide), tokens_of_allBlank hb]
      exact ⟨.word function :: .symbol '(' ::
        [.symbol ','].intercalate (slots.map fun slot => tokens slot.text), tokens tail, by simp⟩

end Argument

end SqlAssembly

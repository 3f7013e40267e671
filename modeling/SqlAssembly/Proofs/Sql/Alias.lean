import SqlAssembly.Proofs.Sql.Reader

namespace SqlAssembly.Sql

/-!
# Aliases in a text

Where a text has aliases, and texts that are put together from pieces with no alias between them.

* `aliases` — the names that stand right behind the word AS, in order;
* `Settled` — no alias is awaited behind some tokens;
* `Laid` — tokens that are those of pieces in order, with connectives around the pieces;
* `Laid.aliasNames_eq` — such tokens have the aliases of the pieces, and no others;
* `Composed`, `Trails`, `ComposedAll` — texts with such tokens, put together.
-/

/-! ### Aliases -/

/-- The word that stands before an alias. -/
def Token.isAs (t : Token) : Bool := t.isKeyword "AS"

/-- The alias that a token is, if it stands right behind the word AS. -/
def Token.alias? (awaited : Bool) : Token → Option String
  | .name content => if awaited then some (String.ofList content) else none
  | _ => none

/-- The aliases among some tokens, if the word AS stands right before them or not. -/
def aliasNamesFrom (awaited : Bool) : List Token → List String
  | [] => []
  | t :: ts => (t.alias? awaited).toList ++ aliasNamesFrom t.isAs ts

/-- The aliases among some tokens, in order. -/
def aliasNames (ts : List Token) : List String := aliasNamesFrom false ts

/-- The aliases of a text, in order. -/
def aliases (sql : String) : List String := aliasNames (tokens sql.toList)

/-- No alias is awaited behind the tokens: the last of them is not the word AS. -/
def Settled (ts : List Token) : Prop := ∀ t ∈ ts.getLast?, t.isAs = false

instance (ts : List Token) : Decidable (Settled ts) := inferInstanceAs (Decidable (∀ _ ∈ _, _))

section

variable {ts us : List Token} {t : Token}

theorem settled_nil : Settled [] := nofun

/-- Of two runs of tokens the last one counts, or the first if the last is empty. -/
theorem Settled.append (ht : Settled ts) (hu : Settled us) : Settled (ts ++ us) := by
  intro t h
  rw [List.getLast?_append] at h
  -- an empty second part leaves the last token of the first
  cases hlast : us.getLast? with
  | none =>
    rw [hlast] at h
    exact ht t h
  | some u =>
    rw [hlast] at h
    obtain rfl := Option.some.inj h
    exact hu u hlast

/-- Only the last token counts. -/
theorem settled_concat (ts : List Token) (h : t.isAs = false) : Settled (ts ++ [t]) := by
  intro u hu
  rw [List.getLast?_concat] at hu
  exact Option.some.inj hu ▸ h

/-- Behind tokens where no alias is awaited, those that follow have the aliases that they have by
themselves. -/
theorem aliasNamesFrom_append {awaited : Bool} (hne : ts ≠ []) (h : Settled ts) :
    aliasNamesFrom awaited (ts ++ us) = aliasNamesFrom awaited ts ++ aliasNames us := by
  induction ts generalizing awaited with
  | nil => exact absurd rfl hne
  | cons t ts ih =>
    rw [List.cons_append, aliasNamesFrom, aliasNamesFrom, List.append_assoc]
    -- behind the last token nothing is awaited, so the other side starts afresh
    cases ts with
    | nil =>
      have hlast : t.isAs = false := h t rfl
      rw [hlast]
      rfl
    | cons u ts =>
      have hrest : Settled (u :: ts) := by
        intro v hv
        exact h v (by rwa [List.getLast?_cons_cons])
      rw [ih (List.cons_ne_nil u ts) hrest]

/-- Behind tokens where no alias is awaited, the aliases are those of either side. -/
theorem aliasNames_append (h : Settled ts) :
    aliasNames (ts ++ us) = aliasNames ts ++ aliasNames us := by
  cases ts with
  | nil => rfl
  | cons t ts => exact aliasNamesFrom_append (List.cons_ne_nil t ts) h

/-- A token that is not the word AS is in front of no alias, and no alias itself. -/
theorem aliasNames_cons (h : t.isAs = false) : aliasNames (t :: ts) = aliasNames ts := by
  rw [aliasNames, aliasNamesFrom, h]
  cases t <;> rfl

/-- Without the word AS there is no alias. -/
theorem aliasNames_eq_nil (h : ∀ t ∈ ts, t.isAs = false) : aliasNames ts = [] := by
  induction ts with
  | nil => rfl
  | cons t ts ih =>
    rw [List.forall_mem_cons] at h
    rw [aliasNames_cons h.1, ih h.2]

/-- Without the word AS no alias is awaited. -/
theorem settled_of_forall (h : ∀ t ∈ ts, t.isAs = false) : Settled ts :=
  fun t ht => h t (List.mem_of_getLast? ht)

end

/-- The word AS is only read where its first letter stands. -/
theorem Token.exists_upper_of_isAs {s : List Char} {t : Token} (ht : t ∈ tokens s)
    (has : t.isAs = true) : ∃ c ∈ s, c.toUpper = 'A' := by
  obtain ⟨c, hc, s', hread⟩ := exists_read_of_mem_tokens ht
  refine ⟨c, hc, ?_⟩
  unfold Token.read at hread
  -- by the first character: a blank, a quote, a placeholder, a word or a symbol; only the word can
  -- be AS
  split at hread
  · cases hread
  split at hread
  · split at hread
    · obtain rfl := Option.some.inj hread
      rw [Token.ofQuoted] at has
      split at has <;> cases has
    · obtain rfl := Option.some.inj hread
      cases has
  split at hread
  · obtain rfl := Option.some.inj hread
    cases has
  split at hread
  · obtain rfl := Option.some.inj hread
    have hletters : (c :: s'.takeWhile Text.isWordChar).map Char.toUpper = ['A', 'S'] :=
      eq_of_beq has
    exact (List.cons.inj hletters).1
  · obtain rfl := Option.some.inj hread
    cases has

/-! ### Pieces with connectives around them -/

/-- A token that is no name and no quote left open, and behind which no alias is awaited. -/
def Token.isConnective : Token → Bool
  | .name _ | .unclosed _ => false
  | t => !t.isAs

/-- The tokens are those of the pieces, one piece after the other and each of them whole, and
connectives before, between and behind them. -/
inductive Laid : List Token → List (List Token) → Prop
  | nil : Laid [] []
  | connective {t : Token} {ts : List Token} {pieces : List (List Token)}
    (ht : t.isConnective = true) (h : Laid ts pieces) : Laid (t :: ts) pieces
  | piece (p : List Token) {ts : List Token} {pieces : List (List Token)} (h : Laid ts pieces) :
    Laid (p ++ ts) (p :: pieces)

/-- A text has no token but connectives. -/
def Connective (s : List Char) : Prop := ∀ t ∈ tokens s, t.isConnective = true

instance (s : List Char) : Decidable (Connective s) := inferInstanceAs (Decidable (∀ _ ∈ _, _))

/-- The word AS is no connective. -/
theorem Token.isAs_of_isConnective {t : Token} (h : t.isConnective = true) : t.isAs = false := by
  cases t with
  | word letters => simpa [isConnective] using h
  | _ => rfl

namespace Laid

variable {ts us : List Token} {pieces others : List (List Token)}

/-- Connectives alone have no pieces. -/
theorem of_connectives (h : ∀ t ∈ ts, t.isConnective = true) : Laid ts [] := by
  induction ts with
  | nil => exact .nil
  | cons t ts ih =>
    rw [List.forall_mem_cons] at h
    exact .connective h.1 (ih h.2)

theorem whole (ts : List Token) : Laid ts [ts] := by
  have h := Laid.piece ts .nil
  rwa [List.append_nil] at h

/-- Of two runs of tokens, the pieces of the first come first. -/
theorem append (ht : Laid ts pieces) (hu : Laid us others) :
    Laid (ts ++ us) (pieces ++ others) := by
  induction ht with
  | nil => exact hu
  | connective hconnective _ ih => exact .connective hconnective ih
  | piece p _ ih =>
    rw [List.append_assoc]
    exact .piece p ih

/-- Pieces with connectives between them. -/
theorem intercalate {sep : List Token} (hsep : ∀ t ∈ sep, t.isConnective = true)
    (pieces : List (List Token)) : Laid (sep.intercalate pieces) pieces := by
  induction pieces with
  | nil => exact .nil
  | cons p pieces ih =>
    cases pieces with
    | nil => simpa using whole p
    | cons p' pieces =>
      rw [List.intercalate_cons_cons, List.append_assoc]
      exact .piece p ((of_connectives hsep).append ih)

/-- No alias is awaited behind the tokens if none is awaited behind any piece. -/
theorem settled (h : Laid ts pieces) (hpieces : ∀ p ∈ pieces, Settled p) : Settled ts := by
  induction h with
  | nil => exact settled_nil
  | connective ht _ ih =>
    -- a connective is settled by itself, and what follows decides
    have hfirst := settled_concat [] (Token.isAs_of_isConnective ht)
    exact hfirst.append (ih hpieces)
  | piece p _ ih =>
    rw [List.forall_mem_cons] at hpieces
    exact hpieces.1.append (ih hpieces.2)

/-- The aliases are those of the pieces if none is awaited behind any piece. -/
theorem aliasNames_eq (h : Laid ts pieces) (hpieces : ∀ p ∈ pieces, Settled p) :
    aliasNames ts = pieces.flatMap aliasNames := by
  induction h with
  | nil => rfl
  | connective ht _ ih => rw [aliasNames_cons (Token.isAs_of_isConnective ht), ih hpieces]
  | piece p _ ih =>
    rw [List.forall_mem_cons] at hpieces
    rw [aliasNames_append hpieces.1, ih hpieces.2, List.flatMap_cons]

end Laid

/-! ### Composed texts -/

/-- Keywords or punctuation in front of a part: behind it a new token begins. -/
def isLead (g : List Char) : Bool := isGap g && (tokens g).all Token.isConnective

/-- Keywords or punctuation between two parts, which no token goes on with. -/
def isLink (g : List Char) : Bool := isLead g && g.head?.all isDelimiter

/-- A text that closes what it opens, with the tokens of the pieces and connectives around them. -/
structure Composed (s : List Char) (pieces : List String) : Prop where
  closed : Closed s
  laid : Laid (tokens s) (pieces.map fun piece => tokens piece.toList)

namespace Composed

variable {s t g : List Char} {pieces others : List String}

theorem whole {piece : String} (h : Closed piece.toList) : Composed piece.toList [piece] :=
  ⟨h, .whole _⟩

/-- Connectives alone are a text with no pieces. -/
theorem of_connective (h : Connective s) : Composed s [] where
  closed := fun q hq => by simpa [Token.isConnective] using h _ hq
  laid := .of_connectives h

theorem nil : Composed [] [] := of_connective (by rw [Connective, tokens_nil]; nofun)

/-- Where the tokens of two texts are apart, composed texts can be put together. -/
theorem of_tokens_append (h : tokens (s ++ t) = tokens s ++ tokens t) (hs : Composed s pieces)
    (ht : Composed t others) : Composed (s ++ t) (pieces ++ others) where
  closed := by
    intro q
    rw [h, List.mem_append]
    exact not_or_intro (hs.closed q) (ht.closed q)
  laid := by
    -- the pieces of either text stand in its own tokens
    rw [h, List.map_append]
    exact hs.laid.append ht.laid

/-- A text that no token goes on with can follow directly. -/
theorem append (hs : Composed s pieces) (hd : Delimited t) (ht : Composed t others) :
    Composed (s ++ t) (pieces ++ others) :=
  of_tokens_append (tokens_append hs.closed hd) hs ht

/-- A composed text behind keywords. -/
theorem lead (hg : isLead g = true) (ht : Composed t others) : Composed (g ++ t) others := by
  rw [isLead, Bool.and_eq_true, List.all_eq_true] at hg
  exact of_tokens_append (tokens_gap hg.1 t) (of_connective hg.2) ht

/-- A text behind a link is one that no token goes on with. -/
theorem delimited_link_append (hg : isLink g = true) (s : List Char) : Delimited (g ++ s) := by
  rw [isLink, isLead, Bool.and_eq_true, Bool.and_eq_true] at hg
  obtain ⟨⟨hgap, -⟩, hhead⟩ := hg
  refine delimited_gap_append hgap (fun c hc => ?_) s
  rw [Option.mem_def.mp hc] at hhead
  exact hhead

/-- Two composed texts with keywords or punctuation between them. -/
theorem link (hs : Composed s pieces) (hg : isLink g = true) (ht : Composed t others) :
    Composed (s ++ (g ++ t)) (pieces ++ others) :=
  -- the link delimits the first text, and leads the second one
  hs.append (delimited_link_append hg t) (ht.lead (Bool.and_eq_true _ _ |>.mp hg).1)

/-- A composed text between parentheses. -/
theorem wrap (hs : Composed s pieces) : Composed ('(' :: (s ++ [')'])) pieces := by
  refine ⟨hs.closed.wrap, ?_⟩
  rw [tokens_wrap hs.closed]
  have hclose := hs.laid.append (.connective (t := .symbol ')') rfl .nil)
  rw [List.append_nil] at hclose
  exact .connective rfl hclose

end Composed

/-- A composed text that may stand right behind another one. -/
structure Trails (s : List Char) (pieces : List String) : Prop extends Composed s pieces where
  delimited : Delimited s

namespace Trails

variable {s t g : List Char} {pieces others : List String}

theorem nil : Trails [] [] := ⟨Composed.nil, delimited_nil⟩

theorem append (hs : Trails s pieces) (ht : Trails t others) :
    Trails (s ++ t) (pieces ++ others) :=
  ⟨hs.toComposed.append ht.delimited ht.toComposed, hs.delimited.append ht.delimited⟩

/-- A composed text behind keywords that no token goes on with. -/
theorem link (hg : isLink g = true) (ht : Composed t others) : Trails (g ++ t) others :=
  ⟨ht.lead (Bool.and_eq_true _ _ |>.mp hg).1, Composed.delimited_link_append hg t⟩

end Trails

/-- Composed texts one by one, with all their pieces together. -/
inductive ComposedAll : List String → List String → Prop
  | nil : ComposedAll [] []
  | cons {s : String} {ss pieces others : List String} (hs : Composed s.toList pieces)
    (hss : ComposedAll ss others) : ComposedAll (s :: ss) (pieces ++ others)

namespace ComposedAll

variable {ss pieces : List String}

/-- Texts that are composed each in the same way. -/
theorem map {α : Type} {xs : List α} {text : α → String} {parts : α → List String}
    (h : ∀ x ∈ xs, Composed (text x).toList (parts x)) :
    ComposedAll (xs.map text) (xs.flatMap parts) := by
  induction xs with
  | nil => exact .nil
  | cons x xs ih =>
    rw [List.forall_mem_cons] at h
    exact .cons h.1 (ih h.2)

/-- Texts of one piece each. -/
theorem map_single {α : Type} {xs : List α} {text piece : α → String}
    (h : ∀ x ∈ xs, Composed (text x).toList [piece x]) :
    ComposedAll (xs.map text) (xs.map piece) := by
  have hall := map h
  rwa [← List.map_eq_flatMap] at hall

/-- Composed texts with keywords or punctuation between them. -/
theorem intercalate (h : ComposedAll ss pieces) {g : String} (hg : isLink g.toList = true) :
    Composed (g.intercalate ss).toList pieces := by
  rw [String.toList_intercalate]
  induction h with
  | nil => exact .nil
  | cons hs hss ih =>
    cases hss with
    | nil =>
      rw [List.append_nil]
      simpa using hs
    | cons ht htt =>
      rw [List.map_cons, List.map_cons, List.intercalate_cons_cons, List.append_assoc]
      exact hs.link hg ih

end ComposedAll

end SqlAssembly.Sql

import SqlAssembly.Proofs.Sql.Token

namespace SqlAssembly.Sql

/-!
# Phrases

The parts that a statement is put together from.  A phrase closes every quote and every
parenthesis that it opens, and mentions certain placeholders; so it can stand anywhere between
other phrases.

* `nesting`, `Balanced` — parentheses that match;
* `placeholders` — the names of the placeholders in a text, in order;
* `Phrase` — a text that can stand by itself, with the names of its placeholders in any order;
* `Trailing` — a phrase that may stand right behind another one;
* `Phrases` — phrases one by one, with their names together.
-/

/-! ### Parentheses -/

/-- The number of open parentheses behind a token, from the number before it. -/
def Token.nest (t : Token) (depth : Nat) : Option Nat :=
  if t = .symbol '(' then some (depth + 1)
  else if t = .symbol ')' then
    match depth with
    | 0 => none
    | depth + 1 => some depth
  else some depth

/-- The number of open parentheses behind some tokens, if none is closed that is not open. -/
def nesting (depth : Nat) : List Token → Option Nat
  | [] => some depth
  | t :: ts => (t.nest depth).bind (nesting · ts)

/-- The parentheses match. -/
def Balanced (ts : List Token) : Prop := nesting 0 ts = some 0

theorem nesting_append (depth : Nat) (ts us : List Token) :
    nesting depth (ts ++ us) = (nesting depth ts).bind (nesting · us) := by
  induction ts generalizing depth with
  | nil => rfl
  | cons t ts ih =>
    simp only [List.cons_append, nesting]
    cases t.nest depth with
    | none => rfl
    | some d => exact ih d

/-- Inside of more parentheses a token opens and closes as much. -/
theorem Token.nest_add {t : Token} {d e : Nat} (h : t.nest d = some e) (k : Nat) :
    t.nest (d + k) = some (e + k) := by
  unfold nest at h ⊢
  split
  · next hopen =>
    rw [if_pos hopen] at h
    obtain rfl := Option.some.inj h
    congr 1
    omega
  next hopen =>
  rw [if_neg hopen] at h
  split
  · next hclose =>
    rw [if_pos hclose] at h
    -- what closes was open, so it is open inside of more parentheses as well
    cases d with
    | zero => cases h
    | succ d =>
      obtain rfl := Option.some.inj h
      rw [Nat.add_right_comm]
  · next hclose =>
    rw [if_neg hclose] at h
    obtain rfl := Option.some.inj h
    rfl

/-- Parentheses that match do so inside of others. -/
theorem nesting_add {ts : List Token} {d e : Nat} (h : nesting d ts = some e) (k : Nat) :
    nesting (d + k) ts = some (e + k) := by
  induction ts generalizing d with
  | nil =>
    obtain rfl := Option.some.inj h
    rfl
  | cons t ts ih =>
    obtain ⟨d', hd', hts⟩ := Option.bind_eq_some_iff.mp h
    rw [nesting, Token.nest_add hd' k]
    exact ih hts

/-- Balanced tokens leave as many parentheses open as before. -/
theorem Balanced.nesting {ts : List Token} (h : Balanced ts) (depth : Nat) :
    nesting depth ts = some depth := by
  have := nesting_add h depth
  rwa [Nat.zero_add] at this

@[simp] theorem balanced_nil : Balanced [] := rfl

/-- Balanced tokens behind balanced tokens. -/
theorem Balanced.append {ts us : List Token} (ht : Balanced ts) (hu : Balanced us) :
    Balanced (ts ++ us) := by
  rw [Balanced, nesting_append, ht.nesting 0]
  exact hu

/-- Balanced tokens between parentheses are balanced. -/
theorem Balanced.wrap {ts : List Token} (h : Balanced ts) :
    Balanced (.symbol '(' :: ts ++ [.symbol ')']) := by
  have hinner : Sql.nesting 1 ts = some 1 := h.nesting 1
  show Sql.nesting 1 (ts ++ [.symbol ')']) = some 0
  rw [nesting_append, hinner]
  rfl

/-- Without parentheses there is nothing to match. -/
theorem balanced_of_forall {ts : List Token}
    (h : ∀ t ∈ ts, t ≠ .symbol '(' ∧ t ≠ .symbol ')') : Balanced ts := by
  induction ts with
  | nil => exact balanced_nil
  | cons t ts ih =>
    obtain ⟨hopen, hclose⟩ := h t List.mem_cons_self
    have hnest : t.nest 0 = some 0 := by rw [Token.nest, if_neg hopen, if_neg hclose]
    rw [Balanced, Sql.nesting, hnest]
    exact ih fun t ht => h t (List.mem_cons_of_mem _ ht)

/-! ### Placeholders -/

/-- The name of a placeholder. -/
def Token.placeholder? : Token → Option String
  | .placeholder digits => some (String.ofList ('$' :: digits))
  | _ => none

/-- The names of the placeholders among some tokens, in order. -/
def placeholderNames (ts : List Token) : List String := ts.filterMap Token.placeholder?

/-- The names of the placeholders of a text, in order. -/
def placeholders (sql : String) : List String := placeholderNames (tokens sql.toList)

@[simp] theorem placeholderNames_append (ts us : List Token) :
    placeholderNames (ts ++ us) = placeholderNames ts ++ placeholderNames us :=
  List.filterMap_append

/-! ### Phrases -/

/-- The tokens of a text between parentheses. -/
theorem tokens_wrap {s : List Char} (hs : Closed s) :
    tokens ('(' :: (s ++ [')'])) = .symbol '(' :: tokens s ++ [.symbol ')'] := by
  rw [tokens_symbol _ (by decide), tokens_append hs (delimited_cons [] (by decide)),
    tokens_symbol [] (by decide), tokens_nil, List.cons_append]

/-- A text between parentheses closes what it opens. -/
theorem Closed.wrap {s : List Char} (hs : Closed s) : Closed ('(' :: (s ++ [')'])) := by
  intro q
  rw [tokens_wrap hs]
  simpa using hs q

/-- A text that closes what it opens and has exactly the placeholders of these names, in some
order. -/
structure Phrase (s : List Char) (names : List String) : Prop where
  closed : Closed s
  balanced : Balanced (tokens s)
  names : (placeholderNames (tokens s)).Perm names

namespace Phrase

variable {s t g : List Char} {m n : List String}

theorem nil : Phrase [] [] where
  closed := closed_nil
  balanced := by rw [tokens_nil]; exact balanced_nil
  names := by rw [tokens_nil]; exact List.Perm.refl _

/-- The order of the names is left open. -/
theorem perm (h : Phrase s m) (hp : m.Perm n) : Phrase s n where
  closed := h.closed
  balanced := h.balanced
  names := h.names.trans hp

/-- The empty text has no placeholders. -/
theorem names_eq_nil (h : Phrase [] m) : m = [] := by
  have := h.names
  rw [tokens_nil] at this
  exact List.Perm.nil_eq this |>.symm

/-- Where the tokens of two texts are apart, phrases can be put together. -/
theorem of_tokens_append (h : tokens (s ++ t) = tokens s ++ tokens t) (hs : Phrase s m)
    (ht : Phrase t n) : Phrase (s ++ t) (m ++ n) where
  closed := by
    intro q
    rw [h, List.mem_append]
    exact not_or_intro (hs.closed q) (ht.closed q)
  balanced := by
    rw [h]
    exact hs.balanced.append ht.balanced
  names := by
    rw [h, placeholderNames_append]
    exact hs.names.append ht.names

/-- A phrase that no token goes on with can follow directly. -/
theorem append (hs : Phrase s m) (hd : Delimited t) (ht : Phrase t n) :
    Phrase (s ++ t) (m ++ n) :=
  of_tokens_append (tokens_append hs.closed hd) hs ht

/-- A text without quotes, dollar signs and parentheses. -/
theorem plain (hs : s.all isPlain = true) : Phrase s [] where
  closed := closed_of_plain hs
  balanced := by
    apply balanced_of_forall
    intro t ht
    rcases word_or_symbol_of_plain hs ht with ⟨w, rfl⟩ | ⟨c, hc, rfl⟩
    · exact ⟨nofun, nofun⟩
    · constructor <;> rintro ⟨rfl⟩ <;> exact absurd hc (by decide)
  names := by
    have hnone : placeholderNames (tokens s) = [] := by
      apply List.filterMap_eq_nil_iff.mpr
      intro t ht
      rcases word_or_symbol_of_plain hs ht with ⟨w, rfl⟩ | ⟨c, -, rfl⟩ <;> rfl
    rw [hnone]

/-- A phrase behind keywords or a separator. -/
theorem gap (hg : isGap g = true) (ht : Phrase t n) : Phrase (g ++ t) n := by
  have hplain : g.all isPlain = true := (Bool.and_eq_true _ _ |>.mp hg).1
  exact of_tokens_append (tokens_gap hg t) (plain hplain) ht

/-- Two phrases with keywords or a separator between them. -/
theorem join (hs : Phrase s m) (hg : isGap g = true) (hd : Delimited g) (ht : Phrase t n) :
    Phrase (s ++ (g ++ t)) (m ++ n) :=
  hs.append (delimited_gap_append hg hd t) (ht.gap hg)

/-- A phrase between parentheses. -/
theorem wrap (hs : Phrase s m) : Phrase ('(' :: (s ++ [')'])) m := by
  have htokens := tokens_wrap hs.closed
  constructor
  · exact hs.closed.wrap
  · rw [htokens]
    exact hs.balanced.wrap
  · rw [htokens, List.cons_append, placeholderNames, List.filterMap_cons_none rfl]
    have hclose : placeholderNames [.symbol ')'] = [] := rfl
    rw [← placeholderNames, placeholderNames_append, hclose, List.append_nil]
    exact hs.names

end Phrase

/-! ### Phrases behind others -/

/-- A phrase that may stand right behind another one. -/
structure Trailing (s : List Char) (names : List String) : Prop extends Phrase s names where
  delimited : Delimited s

namespace Trailing

variable {s t g : List Char} {m n : List String}

theorem nil : Trailing [] [] := ⟨Phrase.nil, delimited_nil⟩

theorem append (hs : Trailing s m) (ht : Trailing t n) : Trailing (s ++ t) (m ++ n) :=
  ⟨hs.toPhrase.append ht.delimited ht.toPhrase, hs.delimited.append ht.delimited⟩

/-- A phrase behind keywords that begin with a delimiter. -/
theorem gap (hg : isGap g = true) (hd : Delimited g) (ht : Phrase t n) : Trailing (g ++ t) n :=
  ⟨ht.gap hg, delimited_gap_append hg hd t⟩

end Trailing

/-- Trailing phrases without placeholders, one right behind the other. -/
theorem trailing_join {texts : List String} (h : ∀ s ∈ texts, Trailing s.toList []) :
    Trailing (String.join texts).toList [] := by
  rw [String.toList_join]
  induction texts with
  | nil => exact .nil
  | cons s texts ih =>
    rw [List.forall_mem_cons] at h
    exact h.1.append (ih h.2)

/-! ### Several phrases -/

/-- Phrases, with the names of all their placeholders together. -/
inductive Phrases : List String → List String → Prop
  | nil : Phrases [] []
  | cons {s : String} {ss m n : List String} (hs : Phrase s.toList m) (hss : Phrases ss n) :
    Phrases (s :: ss) (m ++ n)

namespace Phrases

variable {ss n : List String}

/-- Phrases with a separator between them. -/
theorem intercalate (h : Phrases ss n) {g : String} (hg : isGap g.toList = true)
    (hd : Delimited g.toList) : Phrase (g.intercalate ss).toList n := by
  rw [String.toList_intercalate]
  induction h with
  | nil => exact Phrase.nil
  | cons hs hss ih =>
    cases hss with
    | nil =>
      rw [List.append_nil]
      simpa using hs
    | cons ht htt =>
      rw [List.map_cons, List.map_cons, List.intercalate_cons_cons, List.append_assoc]
      exact hs.join hg hd ih

/-- Empty phrases may be left out, they have no placeholders. -/
theorem filter_nonempty (h : Phrases ss n) :
    Phrases (ss.filter fun s => !s.isEmpty) n := by
  induction h with
  | nil => exact .nil
  | @cons s ss m n hs hss ih =>
    by_cases he : s.isEmpty = true
    · rw [List.filter_cons_of_neg (by simp [he])]
      obtain rfl : s = "" := String.isEmpty_iff.mp he
      rw [hs.names_eq_nil]
      exact ih
    · rw [List.filter_cons_of_pos (by simpa using he)]
      exact .cons hs ih

end Phrases

end SqlAssembly.Sql

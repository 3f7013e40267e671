import SqlAssembly.Verb

namespace SqlAssembly

/-!
# What stands in front of a statement

Blanks, opening parentheses and comments do not change the verb of the text behind them, except
that `/*/` is a comment of its own: the star that opens a block comment is also taken for the one
that closes it.

* `LeadItem`, `LeadItem.Valid` — what may stand in front of a statement;
* `Verb.skipLead_item` — one item is skipped, whatever follows;
* `Verb.ofSql_lead` — any number of them are;
* `Verb.ofSql_lead_slash` — a comment that begins with a slash is not skipped.
-/

/-- What may stand in front of a statement. -/
inductive LeadItem where
  | blank (c : Char)
  | paren
  /-- A comment up to the end of its line. -/
  | line (text : List Char)
  /-- A comment up to its closing delimiter. -/
  | block (body : List Char)
  deriving DecidableEq, Repr

namespace LeadItem

/-- The text of an item. -/
def text : LeadItem → List Char
  | blank c => [c]
  | paren => ['(']
  | line text => '-' :: '-' :: (text ++ ['\n'])
  | block body => '/' :: '*' :: (body ++ ['*', '/'])

/-- The text of an item ends where the item does: a line has no line break inside, and a block
comment no closing delimiter. -/
def Valid : LeadItem → Prop
  | blank c => Text.isBlank c = true
  | paren => True
  | line text => '\n' ∉ text
  | block body => ¬ ['*', '/'] <:+: body

instance : DecidablePred Valid
  | blank c => inferInstanceAs (Decidable (Text.isBlank c = true))
  | paren => inferInstanceAs (Decidable True)
  | line text => inferInstanceAs (Decidable ('\n' ∉ text))
  | block body => inferInstanceAs (Decidable ¬ ['*', '/'] <:+: body)

/-- The body of a block comment does not begin with a slash. -/
def NoSlash : LeadItem → Prop
  | block body => body.head? ≠ some '/'
  | blank _ | paren | line _ => True

instance : DecidablePred NoSlash
  | block body => inferInstanceAs (Decidable (body.head? ≠ some '/'))
  | blank _ | paren | line _ => inferInstanceAs (Decidable True)

/-- The text of several items. -/
def lead (items : List LeadItem) : String := String.ofList (items.flatMap text)

end LeadItem

namespace Verb

/-! ### One item -/

/-- An opening parenthesis is skipped. -/
@[simp] theorem skipLead_paren (s : List Char) : skipLead ('(' :: s) = skipLead s := rfl

/-- Two minus signs begin a comment that ends with its line. -/
@[simp] theorem skipLead_line (s : List Char) : skipLead ('-' :: '-' :: s) = skipLine s := rfl

/-- A slash and a star begin a block, and the star counts as read. -/
@[simp] theorem skipLead_block (s : List Char) :
    skipLead ('/' :: '*' :: s) = skipBlock true s := rfl

/-- A blank is skipped. -/
theorem skipLead_blank {c : Char} (h : Text.isBlank c = true) (s : List Char) :
    skipLead (c :: s) = skipLead s := by
  rw [skipLead.eq_def]
  split
  case h_1 => contradiction
  case h_5 heq =>
    obtain ⟨rfl, rfl⟩ := List.cons.inj heq
    rw [if_pos h]
  -- the characters that begin a comment or open a parenthesis are no blanks
  all_goals
    next heq =>
      obtain ⟨rfl, -⟩ := List.cons.inj heq
      exact absurd h (by decide)

/-- A line ends at its first line break. -/
theorem skipLine_append {text : List Char} (h : '\n' ∉ text) (s : List Char) :
    skipLine (text ++ '\n' :: s) = skipLead s := by
  induction text with
  | nil => simp [skipLine]
  | cons c text ih =>
    rw [List.mem_cons, not_or] at h
    rw [List.cons_append, skipLine, if_neg (Ne.symm h.1)]
    exact ih h.2

/-- A body without a closing delimiter has none behind its first character, and does not begin
with one. -/
theorem noDelimiter_cons {c : Char} {body : List Char} (h : ¬ ['*', '/'] <:+: c :: body) :
    (c = '*' → body.head? ≠ some '/') ∧ ¬ ['*', '/'] <:+: body := by
  constructor
  · rintro rfl hhead
    obtain ⟨rest, rfl⟩ := List.head?_eq_some_iff.mp hhead
    exact h ⟨[], rest, rfl⟩
  · rintro ⟨before, after, rfl⟩
    exact h ⟨c :: before, after, rfl⟩

/-- A block comment ends at its first closing delimiter, unless the star read before it and a
slash at the start of the body are taken for one. -/
theorem skipBlock_append {star : Bool} {body : List Char} (h : ¬ ['*', '/'] <:+: body)
    (hslash : star = true → body.head? ≠ some '/') (s : List Char) :
    skipBlock star (body ++ '*' :: '/' :: s) = skipLead s := by
  induction body generalizing star with
  | nil => simp [skipBlock]
  | cons c body ih =>
    obtain ⟨hstar, hbody⟩ := noDelimiter_cons h
    have hopen : ¬ (star && decide (c = '/')) = true := by
      rw [Bool.and_eq_true, decide_eq_true_eq]
      rintro ⟨hs, rfl⟩
      exact hslash hs rfl
    rw [List.cons_append, skipBlock, if_neg hopen]
    exact ih hbody fun hc => hstar (of_decide_eq_true hc)

/-- An item is skipped, whatever follows. -/
theorem skipLead_item {item : LeadItem} (hvalid : item.Valid) (hslash : item.NoSlash)
    (s : List Char) : skipLead (item.text ++ s) = skipLead s := by
  cases item with
  | blank c =>
    rw [LeadItem.text, List.singleton_append]
    exact skipLead_blank hvalid s
  | paren => rw [LeadItem.text, List.singleton_append, skipLead_paren]
  | line text =>
    rw [LeadItem.text, List.cons_append, List.cons_append, List.append_assoc, skipLead_line]
    exact skipLine_append hvalid s
  | block body =>
    rw [LeadItem.text, List.cons_append, List.cons_append, List.append_assoc, skipLead_block]
    exact skipBlock_append hvalid (fun _ => hslash) s

/-! ### Any number of items -/

/-- Items are skipped one after the other. -/
theorem skipLead_items {items : List LeadItem} (hvalid : ∀ i ∈ items, i.Valid)
    (hslash : ∀ i ∈ items, i.NoSlash) (s : List Char) :
    skipLead (items.flatMap LeadItem.text ++ s) = skipLead s := by
  induction items with
  | nil => rfl
  | cons item items ih =>
    rw [List.forall_mem_cons] at hvalid hslash
    rw [List.flatMap_cons, List.append_assoc, skipLead_item hvalid.1 hslash.1]
    exact ih hvalid.2 hslash.2

/-- The verb depends on what is left of the text. -/
theorem ofSql_congr {s t : String} (h : skipLead s.toList = skipLead t.toList) :
    ofSql s = ofSql t := by
  rw [ofSql, ofSql, h]

/-- What stands in front of a statement does not change its verb, if no block comment begins with a
slash.  The first one that does ends right behind the slash, and its body is read as the
statement. -/
theorem ofSql_lead {items : List LeadItem} (hvalid : ∀ i ∈ items, i.Valid)
    (hslash : ∀ i ∈ items, i.NoSlash) (s : String) :
    ofSql (LeadItem.lead items ++ s) = ofSql s ∧
    ∀ body, ofSql (LeadItem.lead (items ++ [.block ('/' :: body)]) ++ s)
      = ofSql (String.ofList body ++ "*/" ++ s) := by
  constructor
  · apply ofSql_congr
    rw [String.toList_append, LeadItem.lead, String.toList_ofList]
    exact skipLead_items hvalid hslash s.toList
  · intro body
    apply ofSql_congr
    rw [String.toList_append, LeadItem.lead, String.toList_ofList, List.flatMap_append,
      List.append_assoc, skipLead_items hvalid hslash]
    -- the star that was read is taken for that of the closing delimiter, and the slash is next
    simp [LeadItem.text, skipBlock]

/-- Every kind of item, with keywords and delimiters in the comments. -/
theorem ofSql_lead_lookalikes :
    ofSql (LeadItem.lead [.paren, .blank '\t', .line " SELECT /*".toList,
      .block "INSERT --(/*".toList, .block [], .block "*".toList] ++ "delete from t")
      = .delete := by
  have hdelete : ofSql "delete from t" = .delete := by decide +kernel
  exact (ofSql_lead (by decide +kernel) (by decide +kernel) "delete from t").1.trans hdelete

/-- The statement behind the comment deletes, and the verb is that of a word in the comment. -/
theorem ofSql_lead_slash :
    LeadItem.Valid (.block "/ SELECT ".toList) ∧ ofSql "DELETE FROM users" = .delete ∧
      ofSql (LeadItem.lead [.block "/ SELECT ".toList] ++ "DELETE FROM users") = .select :=
  ⟨by decide +kernel, by decide +kernel, by decide +kernel⟩

end Verb

end SqlAssembly

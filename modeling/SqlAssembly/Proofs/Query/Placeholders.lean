import SqlAssembly.Proofs.ColumnExpr.Contained
import SqlAssembly.Proofs.Query.Sound
import SqlAssembly.Proofs.Query.Values

namespace SqlAssembly

/-!
# The placeholders of queries and conditions

The text of a sound query or condition has exactly the placeholders of the values that it binds,
whatever names, literals and patterns it contains.

* `phrase_of_generates`, `phrase_placeholder`, `phrase_test` — the texts of which it is made;
* `Select.phrase_of_sound`, `Condition.phrase_of_sound` — by induction on the query.
-/

open Grammar Sql

/-! ### Texts of the parts -/

/-- Harmless tokens are a phrase without placeholders. -/
theorem phrase_of_harmless {s : List Char} (h : Harmless (tokens s)) : Phrase s [] where
  closed := h.closed
  balanced := h.balanced
  names := by rw [h.placeholderNames_eq_nil]

/-- An expression of the grammar is a phrase without placeholders. -/
theorem phrase_of_generates {part : Part} {s : List Char} (h : Generates part s) : Phrase s [] :=
  phrase_of_harmless (harmless_of_generates h)

theorem phrase_of_isTable {s : List Char} (h : IsTable s) : Phrase s [] :=
  phrase_of_harmless (harmless_of_isTable h)

theorem phrase_of_isName {s : List Char} (h : IsName s) : Phrase s [] :=
  phrase_of_harmless (harmless_of_isName h)

/-- A placeholder is a dollar and the digits of its number. -/
theorem toList_placeholder (n : Nat) :
    (Allocator.placeholder n).toList = '$' :: Nat.toDigits 10 n := by
  simp [Allocator.placeholder]

/-- A placeholder is one token with its own name. -/
theorem tokens_toList_placeholder (n : Nat) :
    tokens (Allocator.placeholder n).toList = [.placeholder (Nat.toDigits 10 n)] := by
  rw [toList_placeholder]
  refine tokens_placeholder Nat.toDigits_ne_nil fun d hd => ?_
  exact Nat.isDigit_of_mem_toDigits (by decide) (by decide) hd

/-- A placeholder has itself as its only placeholder. -/
theorem phrase_placeholder (n : Nat) :
    Phrase (Allocator.placeholder n).toList [Allocator.placeholder n] := by
  have htokens := tokens_toList_placeholder n
  constructor
  · intro q
    simp [htokens]
  · rw [htokens]
    rfl
  -- the name of the token is the text of the placeholder
  · have hname : Token.placeholder? (.placeholder (Nat.toDigits 10 n))
        = some (Allocator.placeholder n) := by
      rw [Token.placeholder?, ← toList_placeholder, String.ofList_toList]
    rw [htokens, placeholderNames, List.filterMap_cons_some hname]
    rfl

/-- The next placeholders have themselves, in order. -/
theorem phrases_names (a : Allocator) (n : Nat) : Phrases (a.names n) (a.names n) := by
  rw [Allocator.names]
  induction List.range' a.next n with
  | nil => exact .nil
  | cons i is ih => exact .cons (phrase_placeholder i) ih

/-- A literal is one token, whatever the pattern has in it. -/
theorem tokens_patternLiteral (pattern : String) :
    tokens (patternLiteral pattern).toList = [.string pattern.toList] := by
  rw [patternLiteral, String.toList_ofList, tokens_string]

/-- A literal has no placeholders. -/
theorem phrase_patternLiteral (pattern : String) : Phrase (patternLiteral pattern).toList [] := by
  refine phrase_of_harmless ?_
  rw [tokens_patternLiteral]
  exact .single rfl rfl nofun

/-- An operator between two texts keeps them apart. -/
theorem isGap_operator (op : Operator) : isGap (" " ++ op.sql ++ " ").toList = true := by
  cases op <;> decide

/-- An operator begins with a blank, so it cannot grow together with what is in front of it. -/
theorem delimited_operator (op : Operator) : Delimited (" " ++ op.sql ++ " ").toList := by
  rw [String.append_assoc, String.toList_append]
  exact delimited_cons _ (by decide)

/-- An operator with nothing behind it begins with a blank, too. -/
theorem delimited_last_operator (op : Operator) : Delimited (" " ++ op.sql).toList := by
  rw [String.toList_append]
  exact delimited_cons _ (by decide)

/-- An operator has no quotes, dollars or parentheses. -/
theorem isPlain_operator (op : Operator) : (" " ++ op.sql).toList.all isPlain = true := by
  cases op <;> decide

/-- An operator has blanks on both sides. -/
theorem test_text (field operand : String) (op : Operator) :
    field ++ " " ++ op.sql ++ " " ++ operand = field ++ (" " ++ op.sql ++ " " ++ operand) := by
  simp only [String.append_assoc]

/-- A column, an operator and an operand have their own tokens. -/
theorem tokens_test {field operand : String} (op : Operator) (hfield : Closed field.toList) :
    tokens (field ++ " " ++ op.sql ++ " " ++ operand).toList
      = tokens field.toList ++ (tokens (" " ++ op.sql ++ " ").toList ++ tokens operand.toList) := by
  rw [test_text, String.toList_append, String.toList_append,
    tokens_append hfield (delimited_gap_append (isGap_operator op) (delimited_operator op) _),
    tokens_gap (isGap_operator op)]

/-- A column, an operator and an operand. -/
theorem phrase_test {field operand : String} {m n : List String} (op : Operator)
    (hfield : Phrase field.toList m) (hoperand : Phrase operand.toList n) :
    Phrase (field ++ " " ++ op.sql ++ " " ++ operand).toList (m ++ n) := by
  rw [test_text, String.toList_append, String.toList_append]
  exact hfield.join (isGap_operator op) (delimited_operator op) hoperand

/-- A list is tested as any operand. -/
theorem inList_text (field list : String) (op : Operator) :
    field ++ " " ++ op.sql ++ " (" ++ list ++ ")"
      = field ++ " " ++ op.sql ++ " " ++ ("(" ++ list ++ ")") := by
  have hopen : " (" = " " ++ "(" := rfl
  rw [hopen]
  simp only [String.append_assoc]

/-- A subquery is tested as any column. -/
theorem subquery_text (inner operand : String) (op : Operator) :
    "(" ++ inner ++ ") " ++ op.sql ++ " " ++ operand
      = "(" ++ inner ++ ")" ++ " " ++ op.sql ++ " " ++ operand := by
  have hclose : ") " = ")" ++ " " := rfl
  rw [hclose]
  simp only [String.append_assoc]

/-- A null check has no placeholders. -/
theorem phrase_nullCheck {field : String} (op : Operator) (hfield : Phrase field.toList []) :
    Phrase (field ++ " " ++ op.sql).toList [] := by
  rw [String.append_assoc, String.toList_append]
  exact hfield.append (delimited_last_operator op) (Phrase.plain (isPlain_operator op))

/-- A text between parentheses, character by character. -/
theorem toList_parenthesized (text : String) :
    ("(" ++ text ++ ")").toList = '(' :: (text.toList ++ [')']) := by
  rw [String.append_assoc, String.toList_append, String.toList_append]
  rfl

/-- A text between parentheses. -/
theorem phrase_parenthesized {text : String} {n : List String} (h : Phrase text.toList n) :
    Phrase ("(" ++ text ++ ")").toList n := by
  rw [toList_parenthesized]
  exact h.wrap

/-- The tokens of a text in parentheses are those of the text, between two symbols. -/
theorem tokens_parenthesized {text : String} (h : Closed text.toList) :
    tokens ("(" ++ text ++ ")").toList = .symbol '(' :: tokens text.toList ++ [.symbol ')'] := by
  rw [toList_parenthesized, tokens_wrap h]

/-- The texts of conditions, put together by AND or OR, have the placeholders of all of them. -/
theorem phrase_joinNonempty {texts n : List String} (combinator : Combinator)
    (h : Phrases texts n) :
    Phrase (joinNonempty (" " ++ combinator.sql ++ " ") texts).toList n := by
  cases combinator with
  | and => exact h.filter_nonempty.intercalate (by decide) (delimited_cons _ (by decide))
  | or => exact h.filter_nonempty.intercalate (by decide) (delimited_cons _ (by decide))

/-- A group has the placeholders of its members. -/
theorem phrase_combinator_join {texts n : List String} (combinator : Combinator)
    (h : Phrases texts n) : Phrase (combinator.join texts).toList n := by
  have hjoined := phrase_joinNonempty combinator h
  unfold Combinator.join
  dsimp only
  split
  · next hempty =>
    rwa [String.isEmpty_iff.mp hempty] at hjoined
  · exact phrase_parenthesized hjoined

/-- The WHERE part may stand behind anything. -/
theorem trailing_whereSuffix {texts n : List String} (h : Phrases texts n) :
    Trailing (whereSuffix texts).toList n := by
  have hjoined : Phrase (joinNonempty " AND " texts).toList n := phrase_joinNonempty .and h
  unfold whereSuffix
  dsimp only
  split
  · next hempty =>
    rw [String.isEmpty_iff.mp hempty] at hjoined
    exact ⟨hjoined, delimited_nil⟩
  · rw [String.toList_append]
    exact .gap (by decide) (delimited_cons _ (by decide)) hjoined

/-! ### Texts of queries -/

/-- The parts of a join behind what it is joined to. -/
theorem Join.toList_sql (j : Join) :
    (" " ++ j.sql).toList = (" " ++ j.kind.sql ++ " ").toList ++
      (j.table.toList ++
        (" ON ".toList ++ (j.left.toList ++ (" = ".toList ++ j.right.toList)))) := by
  simp only [Join.sql, String.toList_append, List.append_assoc]

/-- A join has no placeholders. -/
theorem trailing_join_sql {j : Join} (h : j.Sound) : Trailing (" " ++ j.sql).toList [] := by
  obtain ⟨htable, hleft, hright⟩ := h
  have hcolumns := (phrase_of_generates hleft).join (g := " = ".toList) (by decide)
    (delimited_cons _ (by decide)) (phrase_of_generates hright)
  have hrest := (phrase_of_isTable htable).join (g := " ON ".toList) (by decide)
    (delimited_cons _ (by decide)) hcolumns
  rw [Join.toList_sql]
  cases j.kind with
  | join => exact .gap (by decide) (delimited_cons _ (by decide)) hrest
  | inner => exact .gap (by decide) (delimited_cons _ (by decide)) hrest
  | left => exact .gap (by decide) (delimited_cons _ (by decide)) hrest
  | right => exact .gap (by decide) (delimited_cons _ (by decide)) hrest
  | full => exact .gap (by decide) (delimited_cons _ (by decide)) hrest

/-- Texts without placeholders, one by one. -/
theorem phrases_of_forall {texts : List String} (h : ∀ s ∈ texts, Phrase s.toList []) :
    Phrases texts [] := by
  induction texts with
  | nil => exact .nil
  | cons s texts ih =>
    rw [List.forall_mem_cons] at h
    exact .cons h.1 (ih h.2)

/-- A column to order by has none, with its direction. -/
theorem phrase_order {o : String × Direction} (h : Generates .expression o.1.toList) :
    Phrase (o.1 ++ " " ++ o.2.sql).toList [] := by
  rw [String.append_assoc, String.toList_append]
  cases o.2 with
  | asc => exact (phrase_of_generates h).append (delimited_cons _ (by decide)) (.plain (by decide))
  | desc => exact (phrase_of_generates h).append (delimited_cons _ (by decide)) (.plain (by decide))

/-- A number has no placeholders. -/
theorem phrase_toString (n : Nat) : Phrase (toString n).toList [] := by
  rw [Nat.toString_eq_ofList_toDigits, String.toList_ofList]
  refine .plain (List.all_eq_true.mpr fun d hd => ?_)
  have hdigit : d.isDigit = true := Nat.isDigit_of_mem_toDigits (by decide) (by decide) hd
  simp only [isPlain, Bool.and_eq_true, bne_iff_ne, ne_eq]
  refine ⟨⟨⟨⟨?_, ?_⟩, ?_⟩, ?_⟩, ?_⟩
  all_goals
    rintro rfl
    exact absurd hdigit (by decide)

/-- Order, limit and offset have none. -/
theorem trailing_tail {order : List (String × Direction)} (limit offset : Option UInt64)
    (h : ∀ o ∈ order, Generates .expression o.1.toList) :
    Trailing (Select.tail order limit offset).toList [] := by
  -- the three parts are there or not, each on its own
  have horder : Phrases (order.map fun o => o.1 ++ " " ++ o.2.sql) [] := by
    refine phrases_of_forall fun s hs => ?_
    obtain ⟨o, ho, rfl⟩ := List.mem_map.mp hs
    exact phrase_order (h o ho)
  unfold Select.tail
  dsimp only
  rw [String.toList_append, String.toList_append]
  refine (Trailing.append (n := []) (m := []) ?order ?limit).append ?offset
  case order =>
    split
    · exact .nil
    · rw [String.toList_append]
      exact .gap (by decide) (delimited_cons _ (by decide))
        (horder.intercalate (by decide) (delimited_cons _ (by decide)))
  case limit =>
    cases limit with
    | none => exact .nil
    | some n =>
      rw [String.toList_append]
      exact .gap (by decide) (delimited_cons _ (by decide)) (phrase_toString _)
  case offset =>
    cases offset with
    | none => exact .nil
    | some n =>
      rw [String.toList_append]
      exact .gap (by decide) (delimited_cons _ (by decide)) (phrase_toString _)

/-- The tables have none. -/
theorem phrase_tables {tables : List String} (h : ∀ t ∈ tables, IsTable t.toList) :
    Phrase (", ".intercalate tables).toList [] :=
  (phrases_of_forall fun t ht => phrase_of_isTable (h t ht)).intercalate (by decide)
    (delimited_cons _ (by decide))

/-- The joins have none. -/
theorem trailing_joins {joins : List Join} (h : ∀ j ∈ joins, j.Sound) :
    Trailing (String.join (joins.map fun j => " " ++ j.sql)).toList [] := by
  refine trailing_join fun s hs => ?_
  obtain ⟨j, hj, rfl⟩ := List.mem_map.mp hs
  exact trailing_join_sql (h j hj)

/-- The parts of the text of a query, one after the other. -/
theorem Select.toList_text (q : Select) (fields clauses : List String) :
    (q.text fields clauses).toList = "SELECT ".toList ++
      ((", ".intercalate fields).toList ++ (" FROM ".toList ++
        ((", ".intercalate q.tables).toList ++
          ((String.join (q.joins.map fun j => " " ++ j.sql)).toList ++
            ((whereSuffix clauses).toList ++
              (Select.tail q.order q.limit q.offset).toList))))) := by
  simp only [Select.text, String.toList_append, List.append_assoc]

/-- The text of a query, from phrases for its entries and its clauses. -/
theorem phrase_text {q : Select} (hq : q.Sound) {fields clauses m n : List String}
    (hfields : Phrases fields m) (hclauses : Phrases clauses n) :
    Phrase (q.text fields clauses).toList (m ++ n) := by
  obtain ⟨-, htables, hjoins, -, horder, -⟩ := hq
  have hlist : Phrase (", ".intercalate fields).toList m :=
    hfields.intercalate (by decide) (delimited_cons _ (by decide))
  have hrest := (trailing_joins hjoins).append
    ((trailing_whereSuffix hclauses).append (trailing_tail q.limit q.offset horder))
  rw [Select.toList_text]
  -- what follows the tables begins with a blank or is nothing at all
  have hbody := hlist.join (g := " FROM ".toList) (by decide) (delimited_cons _ (by decide))
    ((phrase_tables htables).append hrest.delimited hrest.toPhrase)
  refine Phrase.gap (by decide) (hbody.perm ?_)
  simp

/-- A phrase with the alias of a query behind it. -/
theorem phrase_aliased {q : Select} (halias : ∀ name ∈ q.alias?, IsName name.toList)
    {text : String} {n : List String} (h : Phrase text.toList n) :
    Phrase (text ++ (match q.alias? with
      | none => ""
      | some name => " AS " ++ name)).toList n := by
  rw [String.toList_append]
  cases hq : q.alias? with
  | none => exact (h.append delimited_nil Phrase.nil).perm (by simp)
  | some name =>
    rw [String.toList_append]
    have hname := phrase_of_isName (halias name hq)
    exact (h.join (by decide) (delimited_cons _ (by decide)) hname).perm (by simp)

/-! ### Everything that is rendered -/

/-- Whenever it is rendered, the text has the placeholders of its values. -/
def Select.Phrased (q : Select) : Prop :=
  ∀ ⦃a a' : Allocator⦄ ⦃sql : String⦄, q.render.outcome a = (.ok sql, a') →
    Phrase sql.toList (a.names (q.values a.options.patterns).length)

@[inherit_doc Select.Phrased]
def Field.Phrased (f : Field) : Prop :=
  ∀ ⦃a a' : Allocator⦄ ⦃sql : String⦄, f.render.outcome a = (.ok sql, a') →
    Phrase sql.toList (a.names (f.values a.options.patterns).length)

@[inherit_doc Select.Phrased]
def Condition.Phrased (c : Condition) : Prop :=
  ∀ ⦃a a' : Allocator⦄ ⦃sql : String⦄, c.render.outcome a = (.ok sql, a') →
    Phrase sql.toList (a.names (c.values a.options.patterns).length)

/-- The names of the values of one part and of those behind it. -/
theorem Allocator.names_append {a m : Allocator} {vs : List Value} (hm : m = a.bindAll vs)
    (ws : List Value) : a.names (vs ++ ws).length = a.names vs.length ++ m.names ws.length := by
  rw [List.length_append, names_add, hm]

/-- The texts of entries have the placeholders of all of them. -/
theorem Field.phrases_of_renderAll {fs : List Field} (hfs : ∀ f ∈ fs, f.Phrased)
    {a a' : Allocator} {texts : List String}
    (h : (Field.renderAll fs).outcome a = (.ok texts, a')) :
    Phrases texts (a.names (Field.allValues a.options.patterns fs).length) := by
  induction fs generalizing a texts with
  | nil =>
    obtain ⟨rfl, -⟩ := Field.renderAll_nil_ok h
    exact .nil
  | cons f fs ih =>
    rw [List.forall_mem_cons] at hfs
    obtain ⟨sql, m, hf, sqls, hrest, rfl⟩ := Field.renderAll_cons_ok h
    have hm := Field.bindAll_of_render f hf
    have hphrases := ih hfs.2 hrest
    -- the options are the same for the next entry, so the same values are bound
    have hoptions : m.options = a.options := by rw [hm, Allocator.bindAll_options]
    rw [hoptions] at hphrases
    rw [Field.allValues, Allocator.names_append hm]
    exact .cons (hfs.1 hf) hphrases

/-- The texts of conditions have the placeholders of all of them. -/
theorem Condition.phrases_of_renderAll {cs : List Condition} (hcs : ∀ c ∈ cs, c.Phrased)
    {a a' : Allocator} {texts : List String}
    (h : (Condition.renderAll cs).outcome a = (.ok texts, a')) :
    Phrases texts (a.names (Condition.allValues a.options.patterns cs).length) := by
  induction cs generalizing a texts with
  | nil =>
    obtain ⟨rfl, -⟩ := Condition.renderAll_nil_ok h
    exact .nil
  | cons c cs ih =>
    rw [List.forall_mem_cons] at hcs
    obtain ⟨sql, m, hc, sqls, hrest, rfl⟩ := Condition.renderAll_cons_ok h
    have hm := Condition.bindAll_of_render c hc
    have hphrases := ih hcs.2 hrest
    have hoptions : m.options = a.options := by rw [hm, Allocator.bindAll_options]
    rw [hoptions] at hphrases
    rw [Condition.allValues, Allocator.names_append hm]
    exact .cons (hcs.1 hc) hphrases

/-- The texts of clauses have the placeholders of all their conditions. -/
theorem WhereClause.phrases_of_renderAll {ws : List WhereClause}
    (hws : ∀ w ∈ ws, ∀ c ∈ w.conditions, c.Phrased) {a a' : Allocator} {texts : List String}
    (h : (WhereClause.renderAll ws).outcome a = (.ok texts, a')) :
    Phrases texts (a.names (WhereClause.allValues a.options.patterns ws).length) := by
  induction ws generalizing a texts with
  | nil =>
    obtain ⟨rfl, -⟩ := WhereClause.renderAll_nil_ok h
    exact .nil
  | cons w ws ih =>
    rw [List.forall_mem_cons] at hws
    obtain ⟨sql, m, hw, sqls, hrest, rfl⟩ := WhereClause.renderAll_cons_ok h
    have hm := WhereClause.bindAll_of_render w hw
    have hphrases := ih hws.2 hrest
    have hoptions : m.options = a.options := by rw [hm, Allocator.bindAll_options]
    rw [hoptions] at hphrases
    rw [WhereClause.allValues, Allocator.names_append hm]
    obtain ⟨clause, hclause, rfl⟩ := WhereClause.render_ok hw
    have hfirst := Condition.phrases_of_renderAll hws.1 hclause
    rw [← WhereClause.values_eq] at hfirst
    exact .cons (phrase_joinNonempty .and hfirst) hphrases

mutual

/-- A sound query has the placeholders of its values, and no others. -/
theorem Select.phrase_of_sound : ∀ {q : Select}, q.Sound → q.Phrased
  | q, @Select.Sound.intro _ hfields htables hjoins hclauses horder halias, a, a', sql, h => by
    have hfieldPhrases : ∀ f ∈ q.fields, f.Phrased := fun f hf =>
      Field.phrase_of_sound (hfields f hf)
    have hclausePhrases : ∀ w ∈ q.clauses, ∀ c ∈ w.conditions, c.Phrased := fun w hw c hc =>
      Condition.phrase_of_sound (hclauses w hw c hc)
    obtain ⟨-, -, -, fields, m, hfs, clauses, hws, rfl⟩ := Select.render_ok h
    have hm := Field.bindAll_of_renderAll q.fields hfs
    have hoptions : m.options = a.options := by rw [hm, Allocator.bindAll_options]
    have hf := Field.phrases_of_renderAll hfieldPhrases hfs
    have hw := WhereClause.phrases_of_renderAll hclausePhrases hws
    -- the conditions go on with the numbers behind those of the fields
    rw [hoptions] at hw
    have hvalues : q.values a.options.patterns = Field.allValues a.options.patterns q.fields ++
        WhereClause.allValues a.options.patterns q.clauses := by
      cases q
      rw [Select.values]
    rw [hvalues, Allocator.names_append hm]
    exact phrase_text ⟨hfields, htables, hjoins, hclauses, horder, halias⟩ hf hw

/-- The same for an entry of a select list. -/
theorem Field.phrase_of_sound : ∀ {f : Field}, f.Sound → f.Phrased
  | _, .column hsql, a, a', sql, h => by
    rw [Field.render] at h
    cases h
    exact phrase_of_generates hsql
  | _, .call call, a, a', sql, h => by
    rw [Field.render, Render.outcome_liftExcept] at h
    exact phrase_of_generates (generates_of_functionCall (Prod.mk.inj h).1)
  | _, .subquery hquery, a, a', sql, h => by
    have hphrase := Select.phrase_of_sound hquery
    obtain ⟨-, -, -, -, -, halias⟩ := hquery
    obtain ⟨inner, hinner, rfl⟩ := Field.render_subquery_ok h
    rw [Field.values]
    exact phrase_aliased halias (phrase_parenthesized (hphrase hinner))

/-- A sound condition has the placeholders of its values, and no others. -/
theorem Condition.phrase_of_sound : ∀ {c : Condition}, c.Sound → c.Phrased
  | _, .compare value hfield hop, a, a', sql, h => by
    rw [Condition.render] at h
    cases h
    exact phrase_test _ (phrase_of_generates hfield) (phrase_placeholder _)
  | _, .nullCheck hfield hop, a, a', sql, h => by
    rw [Condition.render] at h
    cases h
    exact phrase_nullCheck _ (phrase_of_generates hfield)
  | _, @Condition.Sound.inList field op values hfield hop, a, a', sql, h => by
    obtain ⟨-, rfl⟩ := Condition.render_inList_ok h
    have hlist := (phrases_names a values.length).intercalate (g := ", ") (by decide)
      (delimited_cons _ (by decide))
    rw [inList_text, Condition.values]
    exact phrase_test op (phrase_of_generates hfield) (phrase_parenthesized hlist)
  | _, @Condition.Sound.between field op low high hfield hop, a, a', sql, h => by
    rw [Condition.render] at h
    cases h
    have hbounds := (phrase_placeholder a.next).join (g := " AND ".toList) (by decide)
      (delimited_cons _ (by decide)) (phrase_placeholder (a.next + 1))
    rw [← String.toList_append, ← String.toList_append] at hbounds
    rw [Condition.values, String.append_assoc, String.append_assoc]
    exact phrase_test op (phrase_of_generates hfield) hbounds
  | _, .pattern pattern hfield hop, a, a', sql, h => by
    rcases Condition.render_pattern_ok h with ⟨hmode, -, rfl⟩ | ⟨hmode, -, rfl⟩
    · rw [hmode]
      exact phrase_test _ (phrase_of_generates hfield) (phrase_patternLiteral pattern)
    · rw [hmode]
      exact phrase_test _ (phrase_of_generates hfield) (phrase_placeholder _)
  | _, .columns hfield hop hcolumn, a, a', sql, h => by
    rw [Condition.render] at h
    cases h
    exact phrase_test _ (phrase_of_generates hfield) (phrase_of_generates hcolumn)
  | _, @Condition.Sound.subquery query op value hquery hop, a, a', sql, h => by
    have hphrase := Select.phrase_of_sound hquery
    obtain ⟨inner, hinner, rfl⟩ := Condition.render_subquery_ok h
    have htest := phrase_test op (phrase_parenthesized (hphrase hinner)) (phrase_placeholder a.next)
    rw [subquery_text, Condition.values, List.length_cons, a.names_succ _ value]
    -- the value is bound first but stands last
    exact htest.perm List.perm_append_comm
  | _, .group combinator hconditions, a, a', sql, h => by
    have hphrases := fun c hc => Condition.phrase_of_sound (hconditions c hc)
    obtain ⟨texts, htexts, rfl⟩ := Condition.render_group_ok h
    rw [Condition.values]
    exact phrase_combinator_join combinator (Condition.phrases_of_renderAll hphrases htexts)

end

end SqlAssembly

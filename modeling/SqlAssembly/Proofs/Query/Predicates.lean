import Mathlib.Data.List.Infix
import SqlAssembly.Proofs.Query.Placeholders
import SqlAssembly.Proofs.Sql.Reader

namespace SqlAssembly

/-!
# Conditions as predicates

Every sound condition but a group is read as one predicate, whatever its columns, its literals and
its subquery contain.

* `CallsReserved` — the column calls a function with the name of a keyword;
* `Condition.testedColumns` — the columns that stand in the text of a condition;
* `inside_of_generates`, `inside_operator`, `inside_between` — the parts of a predicate;
* `Condition.reads_of_render` — the predicates.
-/

open Grammar Sql

/-! ### Columns that are tested -/

mutual

/-- The columns that a condition tests. -/
def Condition.testedColumns : Condition → List String
  | .compare field _ _ | .nullCheck field _ | .inList field _ _ | .between field _ _ _
  | .pattern field _ _ => [field]
  | .columns field _ column => [field, column]
  | .group _ conditions => Condition.allTestedColumns conditions
  | .subquery _ _ _ | .raw _ => []

/-- The columns that conditions test. -/
def Condition.allTestedColumns : List Condition → List String
  | [] => []
  | c :: rest => c.testedColumns ++ Condition.allTestedColumns rest

end

/-- What a condition tests is among what all of them test. -/
theorem Condition.mem_allTestedColumns {c : Condition} {cs : List Condition} {column : String}
    (hc : c ∈ cs) (hcolumn : column ∈ c.testedColumns) : column ∈ allTestedColumns cs := by
  induction cs with
  | nil => cases hc
  | cons d cs ih =>
    rw [allTestedColumns, List.mem_append]
    rcases List.mem_cons.mp hc with rfl | hc
    · exact .inl hcolumn
    · exact .inr (ih hc)

/-- The column calls a function with the name of a keyword that a reader of conditions knows. -/
def CallsReserved (column : String) : Prop :=
  ∃ t : Token, t.isReserved = true ∧ [t, .symbol '('] <:+: tokens column.toList

instance (column : String) : Decidable (CallsReserved column) :=
  decidable_of_iff ((tokens column.toList).any fun t =>
      t.isReserved && decide ([t, .symbol '('] <:+: tokens column.toList)) <| by
    simp only [List.any_eq_true, Bool.and_eq_true, decide_eq_true_eq]
    constructor
    · rintro ⟨t, -, h⟩
      exact ⟨t, h⟩
    · rintro ⟨t, ht, h⟩
      exact ⟨t, h.subset List.mem_cons_self, ht, h⟩

/-! ### Columns and operators in a predicate -/

/-- No token of a path is a keyword, and there is one at least. -/
theorem neutral_of_isPath {n : Nat} {s : List Char} (h : IsPath n s) :
    tokens s ≠ [] ∧ ∀ t ∈ tokens s, t.isNeutral = true := by
  obtain ⟨names, hne, htokens⟩ := tokens_of_isPath h
  rw [htokens]
  clear htokens
  induction names with
  | nil => exact absurd rfl hne
  | cons name names ih =>
    cases names with
    | nil => simp [Token.isNeutral, Token.isReserved, Token.isKeyword]
    | cons name' names =>
      obtain ⟨-, hneutral⟩ := ih (List.cons_ne_nil _ _)
      rw [List.map_cons, List.map_cons, List.intercalate_cons_cons]
      refine ⟨by simp, ?_⟩
      intro t ht
      simp only [List.append_assoc, List.mem_append, List.mem_singleton] at ht
      -- a name, a point, or a token of the rest
      rcases ht with rfl | rfl | ht
      · rfl
      · decide
      · exact hneutral t ht

/-- No token of an alias is a keyword that readers of conditions know. -/
theorem neutral_of_isAlias {s : List Char} (h : IsAlias s) : ∀ t ∈ tokens s, t.isNeutral = true := by
  intro t ht
  rcases tokens_of_isAlias h with htokens | ⟨name, htokens⟩
  · rw [htokens] at ht
    cases ht
  · rw [htokens] at ht
    simp only [List.mem_cons, List.not_mem_nil, or_false] at ht
    rcases ht with rfl | rfl
    · decide
    · rfl

/-- A column can begin a predicate and stay inside of it, unless it calls a keyword. -/
theorem inside_of_generates {column : String} (h : Generates .expression column.toList)
    (hcalls : ¬ CallsReserved column) :
    ∃ t ts, tokens column.toList = t :: ts ∧ t.isNeutral = true ∧ Inside ts := by
  unfold CallsReserved at hcalls
  generalize column.toList = s at h hcalls
  cases h with
  | star => exact ⟨.symbol '*', [], by rw [tokens_symbol _ (by decide), tokens_nil], by decide, .nil⟩
  | @column path tail hpath htail =>
    obtain ⟨hne, hneutral⟩ := neutral_of_isPath hpath
    rw [tokens_append (harmless_of_isPath hpath).closed (delimited_of_isAlias htail)]
    cases htokens : tokens path with
    | nil => exact absurd htokens hne
    | cons t ts =>
      rw [htokens, List.forall_mem_cons] at hneutral
      exact ⟨t, ts ++ tokens tail, rfl, hneutral.1,
        (Inside.of_forall hneutral.2).append (.of_forall (neutral_of_isAlias htail))⟩
  | @call function tail arguments hfunction harguments htail =>
    have hargument : ∀ x ∈ arguments, Harmless (tokens x) := fun x hx =>
      harmless_of_generates (harguments x hx)
    rw [tokens_call hfunction fun x hx => (hargument x hx).closed] at hcalls ⊢
    -- the parenthesis stands right behind the name
    have hreserved : Token.isReserved (.word function) = false := by
      by_contra h
      exact hcalls ⟨_, by simpa using h, [], _, rfl⟩
    refine ⟨_, _, rfl, by simp [Token.isNeutral, hreserved], ?_⟩
    exact (Inside.wrap (harmless_arguments hargument).balanced).append
      (.of_forall (neutral_of_isAlias htail))

/-- A column in a predicate. -/
theorem inside_column {column : String} (h : Generates .expression column.toList)
    (hcalls : ¬ CallsReserved column) : Inside (tokens column.toList) := by
  obtain ⟨t, ts, htokens, ht, hts⟩ := inside_of_generates h hcalls
  rw [htokens]
  exact (Inside.neutral ht).append hts

/-- The word AND between blanks is one token. -/
theorem tokens_and : tokens " AND ".toList = [.word ['A', 'N', 'D']] := by
  simp [tokens_blank, tokens_word, Text.isBlank, isWordHead, Text.isWordChar]

theorem tokens_or : tokens " OR ".toList = [.word ['O', 'R']] := by
  simp [tokens_blank, tokens_word, Text.isBlank, isWordHead, Text.isWordChar]

/-- The blank behind an operator is no token. -/
theorem tokens_operator (op : Operator) :
    tokens (" " ++ op.sql ++ " ").toList = tokens (" " ++ op.sql).toList := by
  rw [String.toList_append]
  show tokens ((" " ++ op.sql).toList ++ [' ']) = _
  rw [tokens_append (closed_of_plain (isPlain_operator op)) (delimited_cons [] (by decide)),
    tokens_blank [] (by decide), tokens_nil, List.append_nil]

/-- An operator in a predicate, unless it is a BETWEEN. -/
theorem inside_operator {op : Operator} (h : op.cls ≠ .range) :
    Inside (tokens (" " ++ op.sql).toList) := by
  intro outer level pre
  cases op
  case between => exact absurd rfl h
  case notBetween => exact absurd rfl h
  all_goals
    simp [tokens_blank, tokens_word, tokens_symbol, isSymbol, isWordHead, Text.isBlank,
      Text.isWordChar, Operator.sql, Reader.run, Reader.step, Reader.proceed, Token.isKeyword,
      Token.nest]

/-- The bounds of a BETWEEN. -/
theorem tokens_bounds (low high : Nat) :
    tokens (Allocator.placeholder low ++ (" AND " ++ Allocator.placeholder high)).toList
      = [.placeholder (Nat.toDigits 10 low), .word ['A', 'N', 'D'],
        .placeholder (Nat.toDigits 10 high)] := by
  have hgap : isGap " AND ".toList = true := by decide
  have hd : Delimited " AND ".toList := delimited_cons _ (by decide)
  rw [String.toList_append, String.toList_append,
    tokens_append (phrase_placeholder low).closed (delimited_gap_append hgap hd _),
    tokens_gap hgap, tokens_and, tokens_toList_placeholder, tokens_toList_placeholder]
  rfl

/-- A NOT behind a column is part of the operator. -/
theorem inside_not : Inside [.word ['N', 'O', 'T']] := by
  intro outer level pre
  simp [Reader.run, Reader.step, Reader.proceed, Token.nest, Token.isKeyword]

/-- A BETWEEN takes the AND between its bounds. -/
theorem inside_between {op : Operator} (h : op.cls = .range) (low high : Nat) :
    Inside (tokens (" " ++ op.sql ++ " ").toList ++
      tokens (Allocator.placeholder low ++ (" AND " ++ Allocator.placeholder high)).toList) := by
  rw [tokens_bounds, tokens_operator]
  cases op
  case between =>
    have hword : tokens (" " ++ Operator.between.sql).toList
        = [.word ['B', 'E', 'T', 'W', 'E', 'E', 'N']] := by
      simp [tokens_blank, tokens_word, Text.isBlank, isWordHead, Text.isWordChar, Operator.sql]
    rw [hword]
    exact .between _ _
  case notBetween =>
    have hwords : tokens (" " ++ Operator.notBetween.sql).toList
        = [.word ['N', 'O', 'T']] ++ [.word ['B', 'E', 'T', 'W', 'E', 'E', 'N']] := by
      simp [tokens_blank, tokens_word, Text.isBlank, isWordHead, Text.isWordChar, Operator.sql]
    rw [hwords, List.append_assoc]
    exact inside_not.append (.between _ _)
  all_goals cases h

/-- Balanced texts between parentheses in a predicate. -/
theorem inside_parenthesized {text : String} {n : List String} (h : Phrase text.toList n) :
    Inside (tokens ("(" ++ text ++ ")").toList) := by
  rw [tokens_parenthesized h.closed]
  exact .wrap h.balanced

/-! ### Tests -/

/-- The condition is no group. -/
def Condition.IsPredicate : Condition → Prop
  | .group _ _ => False
  | _ => True

/-- A test of a column is read as the predicate that it is. -/
theorem reads_test {field operand : String} {op : Operator}
    (hfield : Generates .expression field.toList) (hcalls : ¬ CallsReserved field)
    (hoperand : Inside (tokens (" " ++ op.sql ++ " ").toList ++ tokens operand.toList)) :
    Reads (tokens (field ++ " " ++ op.sql ++ " " ++ operand).toList)
      [.predicate (tokens (field ++ " " ++ op.sql ++ " " ++ operand).toList)] := by
  obtain ⟨t, ts, htokens, ht, hts⟩ := inside_of_generates hfield hcalls
  rw [tokens_test op (phrase_of_generates hfield).closed, htokens]
  exact .predicate ht (hts.append hoperand)

/-- A null check is read as one predicate. -/
theorem reads_nullCheck {field : String} {op : Operator} (hop : op.cls = .nullCheck)
    (hfield : Generates .expression field.toList) (hcalls : ¬ CallsReserved field) :
    Reads (tokens (field ++ " " ++ op.sql).toList)
      [.predicate (tokens (field ++ " " ++ op.sql).toList)] := by
  obtain ⟨t, ts, htokens, ht, hts⟩ := inside_of_generates hfield hcalls
  rw [String.append_assoc, String.toList_append,
    tokens_append (phrase_of_generates hfield).closed (delimited_last_operator op), htokens]
  -- the column begins the predicate and the operator stays inside of it
  exact .predicate ht (hts.append (inside_operator (by simp [hop])))

/-- A subquery compared with a value is read as the predicate that it is. -/
theorem reads_subquery {inner operand : String} {op : Operator} (hop : op.cls ≠ .range)
    {n : List String} (hinner : Phrase ("SELECT " ++ inner).toList n)
    (hoperand : Inside (tokens operand.toList)) :
    Reads (tokens ("(" ++ ("SELECT " ++ inner) ++ ")" ++ " " ++ op.sql ++ " " ++ operand).toList)
      [.predicate (tokens
        ("(" ++ ("SELECT " ++ inner) ++ ")" ++ " " ++ op.sql ++ " " ++ operand).toList)] := by
  have hselect : tokens ("SELECT " ++ inner).toList
      = .word ['S', 'E', 'L', 'E', 'C', 'T'] :: tokens inner.toList := by
    have hword : tokens "SELECT ".toList = [.word ['S', 'E', 'L', 'E', 'C', 'T']] := by
      simp [tokens_blank, tokens_word, Text.isBlank, isWordHead, Text.isWordChar]
    rw [String.toList_append, tokens_gap (by decide), hword]
    rfl
  have hwrapped : tokens ("(" ++ ("SELECT " ++ inner) ++ ")").toList
      = .symbol '(' :: .word ['S', 'E', 'L', 'E', 'C', 'T'] :: tokens inner.toList ++ [.symbol ')'] := by
    rw [tokens_parenthesized hinner.closed, hselect]
  -- the parentheses of the subquery match, so the predicate goes on behind them
  have hbalanced := hinner.balanced
  rw [hselect] at hbalanced
  rw [tokens_test op (phrase_parenthesized hinner).closed, hwrapped, List.append_assoc,
    List.singleton_append]
  rw [tokens_operator]
  exact .subquery rfl hbalanced ((inside_operator hop).append hoperand)

/-- A placeholder stays inside of a predicate. -/
theorem inside_placeholder (n : Nat) : Inside (tokens (Allocator.placeholder n).toList) := by
  rw [tokens_toList_placeholder]
  exact .neutral (by simp [Token.isNeutral, Token.isReserved, Token.isKeyword])

/-- A literal stays inside of a predicate, whatever it contains. -/
theorem inside_patternLiteral (pattern : String) :
    Inside (tokens (patternLiteral pattern).toList) := by
  rw [tokens_patternLiteral]
  exact .neutral (by simp [Token.isNeutral, Token.isReserved, Token.isKeyword])

/-- An operator that is no BETWEEN, with its operand. -/
theorem inside_operand {op : Operator} {operand : String} (hop : op.cls ≠ .range)
    (h : Inside (tokens operand.toList)) :
    Inside (tokens (" " ++ op.sql ++ " ").toList ++ tokens operand.toList) := by
  rw [tokens_operator]
  exact (inside_operator hop).append h

/-- A sound condition is read as one predicate, unless it is a group. -/
theorem Condition.reads_of_render {c : Condition} (hc : c.IsPredicate)
    (hsound : c.Sound) (hcalls : ∀ column ∈ c.testedColumns, ¬ CallsReserved column)
    {a a' : Allocator} {sql : String} (h : c.render.outcome a = (.ok sql, a')) :
    Reads (tokens sql.toList) [.predicate (tokens sql.toList)] := by
  cases hsound with
  | @compare field op value hfield hop =>
    have hfield' : ¬ CallsReserved field := hcalls field (by simp [testedColumns])
    rw [Condition.render] at h
    cases h
    exact reads_test hfield hfield' (inside_operand (by simp [hop]) (inside_placeholder _))
  | @nullCheck field op hfield hop =>
    have hfield' : ¬ CallsReserved field := hcalls field (by simp [testedColumns])
    rw [Condition.render] at h
    cases h
    exact reads_nullCheck hop hfield hfield'
  | @inList field op values hfield hop =>
    have hfield' : ¬ CallsReserved field := hcalls field (by simp [testedColumns])
    obtain ⟨-, rfl⟩ := Condition.render_inList_ok h
    have hlist := (phrases_names a values.length).intercalate (g := ", ") (by decide)
      (delimited_cons _ (by decide))
    rw [inList_text]
    exact reads_test hfield hfield' (inside_operand (by simp [hop]) (inside_parenthesized hlist))
  | @between field op low high hfield hop =>
    have hfield' : ¬ CallsReserved field := hcalls field (by simp [testedColumns])
    rw [Condition.render] at h
    cases h
    rw [String.append_assoc, String.append_assoc]
    exact reads_test hfield hfield' (inside_between hop a.next (a.next + 1))
  | @pattern field op pattern hfield hop =>
    have hfield' : ¬ CallsReserved field := hcalls field (by simp [testedColumns])
    have hop : op.cls ≠ .range := by simp [hop]
    rcases Condition.render_pattern_ok h with ⟨-, -, rfl⟩ | ⟨-, -, rfl⟩
    · exact reads_test hfield hfield' (inside_operand hop (inside_patternLiteral pattern))
    · exact reads_test hfield hfield' (inside_operand hop (inside_placeholder _))
  | @columns field column op hfield hop hcolumn =>
    have hfield' : ¬ CallsReserved field := hcalls field (by simp [testedColumns])
    have hcolumn' : ¬ CallsReserved column := hcalls column (by simp [testedColumns])
    rw [Condition.render] at h
    cases h
    exact reads_test hfield hfield' (inside_operand (by simp [hop]) (inside_column hcolumn hcolumn'))
  | @subquery query op value hquery hop =>
    obtain ⟨inner, hinner, rfl⟩ := Condition.render_subquery_ok h
    have hphrase := Select.phrase_of_sound hquery hinner
    -- the SELECT behind the parenthesis tells the subquery from a group
    obtain ⟨-, -, -, fields, m, -, clauses, -, rfl⟩ := Select.render_ok hinner
    obtain ⟨rest, hrest⟩ := query.exists_text_eq fields clauses
    rw [hrest] at hphrase
    rw [subquery_text, hrest]
    exact reads_subquery (by simp [hop]) hphrase (inside_placeholder _)
  | @group combinator conditions hconditions => exact hc.elim

end SqlAssembly

import SqlAssembly.Proofs.ColumnExpr.Aliased
import SqlAssembly.Proofs.Query.Joined
import SqlAssembly.Proofs.Query.Placeholders

namespace SqlAssembly

/-!
# What is placed in a query

The text of a query is made of texts that were checked before, with keywords, placeholders, literals
and punctuation around them.

* `Place`, `Select.placed`, `Condition.placed` — these texts, in the order in which they stand, and
  what each of them stands for;
* `composed_test`, `Select.composed_text` — the texts of the parts;
* `Select.composed_of_render`, `Condition.composed_of_render` — by induction on the query.
-/

open Sql

/-! ### Places -/

/-- What a text stands for where it is placed. -/
inductive Place where
  /-- An entry of a select list, or the alias of a subquery in one. -/
  | entry
  /-- A table with its alias. -/
  | table
  /-- A column in a condition, a column list, a SET list, an ORDER BY or an ON. -/
  | column
  /-- The name of a column that is created. -/
  | name
  /-- SQL text of the caller's own. -/
  | fragment
  deriving DecidableEq, Repr

/-- A text and its place. -/
abbrev Placed : Type := Place × String

/-- The texts of a join. -/
def Join.placed (j : Join) : List Placed :=
  [(.table, j.table), (.column, j.left), (.column, j.right)]

mutual

/-- The texts that are placed in a query, in order. -/
def Select.placed : Select → List Placed
  | ⟨fields, tables, joins, clauses, order, _, _, _, _, _⟩ =>
    Field.allPlaced fields ++ (tables.map (Prod.mk .table) ++ (joins.flatMap Join.placed ++
      (WhereClause.allPlaced clauses ++ order.map fun o => (.column, o.1))))

/-- The texts that are placed in an entry of a select list. -/
def Field.placed : Field → List Placed
  | .column sql => [(.entry, sql)]
  | .call call => call.sql.toOption.toList.map (Prod.mk .entry)
  | .subquery query => query.placed ++ query.alias?.toList.map fun name => (.entry, " AS " ++ name)

/-- The texts that are placed in the entries, in order. -/
def Field.allPlaced : List Field → List Placed
  | [] => []
  | f :: rest => f.placed ++ Field.allPlaced rest

/-- The texts that are placed in a condition, in order. -/
def Condition.placed : Condition → List Placed
  | .compare field _ _ | .nullCheck field _ | .inList field _ _ | .between field _ _ _
  | .pattern field _ _ => [(.column, field)]
  | .columns field _ column => [(.column, field), (.column, column)]
  | .subquery query _ _ => query.placed
  | .group _ conditions => Condition.allPlaced conditions
  | .raw sql => [(.fragment, sql)]

/-- The texts that are placed in conditions, from left to right. -/
def Condition.allPlaced : List Condition → List Placed
  | [] => []
  | c :: rest => c.placed ++ Condition.allPlaced rest

/-- The texts that are placed in a clause, in order. -/
def WhereClause.placed : WhereClause → List Placed
  | ⟨first, rest⟩ => first.placed ++ Condition.allPlaced rest

/-- The texts that are placed in clauses, from left to right. -/
def WhereClause.allPlaced : List WhereClause → List Placed
  | [] => []
  | w :: rest => w.placed ++ WhereClause.allPlaced rest

end

/-- Every quote that is opened in one of the texts is closed in it. -/
def AllClosed (placed : List Placed) : Prop := ∀ p ∈ placed, Closed p.2.toList

theorem allClosed_append {placed others : List Placed} :
    AllClosed (placed ++ others) ↔ AllClosed placed ∧ AllClosed others :=
  List.forall_mem_append

/-! ### Texts of conditions -/

section

variable {field operand text : String} {pieces others texts : List String}

/-- An operator between blanks links what is on both of its sides. -/
theorem isLink_operator (op : Operator) : isLink (" " ++ op.sql ++ " ").toList = true := by
  cases op <;> decide +kernel

/-- An operator has nothing but words and symbols. -/
theorem connective_operator (op : Operator) : Connective (" " ++ op.sql).toList := by
  cases op <;> decide +kernel

/-- AND and OR between blanks link what is on both of their sides. -/
theorem isLink_combinator (combinator : Combinator) :
    isLink (" " ++ combinator.sql ++ " ").toList = true := by
  cases combinator <;> decide +kernel

/-- A placeholder contains no text that was placed. -/
theorem composed_placeholder (n : Nat) : Composed (Allocator.placeholder n).toList [] := by
  refine .of_connective ?_
  rw [Connective, tokens_toList_placeholder]
  exact List.forall_mem_singleton.mpr rfl

/-- Placeholders have no pieces. -/
theorem composedAll_names (a : Allocator) (n : Nat) : ComposedAll (a.names n) [] := by
  have h : ComposedAll (a.names n) ((List.range' a.next n).flatMap fun _ => []) :=
    .map fun i _ => composed_placeholder i
  rwa [List.flatMap_eq_nil_iff.mpr fun _ _ => rfl] at h

/-- A literal has no pieces. -/
theorem composed_patternLiteral (pattern : String) :
    Composed (patternLiteral pattern).toList [] := by
  refine .of_connective ?_
  rw [Connective, tokens_patternLiteral]
  exact List.forall_mem_singleton.mpr rfl

/-- A column, an operator and an operand. -/
theorem composed_test (op : Operator) (hfield : Composed field.toList pieces)
    (hoperand : Composed operand.toList others) :
    Composed (field ++ " " ++ op.sql ++ " " ++ operand).toList (pieces ++ others) := by
  rw [test_text, String.toList_append, String.toList_append]
  exact hfield.link (isLink_operator op) hoperand

/-- A column and an operand without pieces of its own. -/
theorem composed_test_value (op : Operator) (hfield : Closed field.toList)
    (hoperand : Composed operand.toList []) :
    Composed (field ++ " " ++ op.sql ++ " " ++ operand).toList [field] :=
  composed_test op (.whole hfield) hoperand

/-- Parentheses keep what a text is composed of. -/
theorem composed_parenthesized (h : Composed text.toList pieces) :
    Composed ("(" ++ text ++ ")").toList pieces := by
  rw [toList_parenthesized]
  exact h.wrap

/-- Texts that are not empty are joined; the others have no tokens. -/
theorem composed_joinNonempty (combinator : Combinator) (h : ComposedAll texts pieces) :
    Composed (joinNonempty (" " ++ combinator.sql ++ " ") texts).toList pieces := by
  induction h with
  | nil => exact .nil
  | @cons s ss pieces others hs _ ih =>
    rw [joinNonempty_cons]
    by_cases hempty : s = ""
    · subst hempty
      rw [joinNonempty_empty_left]
      exact Composed.of_tokens_append (s := []) (by rw [tokens_nil]; rfl) hs ih
    by_cases hrest : joinNonempty (" " ++ combinator.sql ++ " ") ss = ""
    · rw [hrest] at ih ⊢
      rw [joinNonempty_empty_right]
      have h := hs.append delimited_nil ih
      rwa [List.append_nil] at h
    · rw [joinNonempty_pair hempty hrest, String.append_assoc, String.toList_append,
        String.toList_append]
      exact hs.link (isLink_combinator combinator) ih

/-- A group is composed of what its members are. -/
theorem composed_combinator_join (combinator : Combinator) (h : ComposedAll texts pieces) :
    Composed (combinator.join texts).toList pieces := by
  have hjoined := composed_joinNonempty combinator h
  unfold Combinator.join
  dsimp only
  split
  · next hempty => rwa [String.isEmpty_iff.mp hempty] at hjoined
  · exact composed_parenthesized hjoined

/-- The WHERE part may stand behind anything. -/
theorem trails_whereSuffix (h : ComposedAll texts pieces) :
    Trails (whereSuffix texts).toList pieces := by
  have hjoined : Composed (joinNonempty " AND " texts).toList pieces :=
    composed_joinNonempty .and h
  unfold whereSuffix
  dsimp only
  split
  · next hempty =>
    rw [String.isEmpty_iff.mp hempty] at hjoined
    exact ⟨hjoined, delimited_nil⟩
  · rw [String.toList_append]
    exact .link (by decide +kernel) hjoined

end

/-! ### Texts of queries -/

/-- A join is composed of its table and its two columns. -/
theorem trails_join_sql {j : Join} (h : AllClosed j.placed) :
    Trails (" " ++ j.sql).toList [j.table, j.left, j.right] := by
  simp only [AllClosed, Join.placed, List.forall_mem_cons] at h
  obtain ⟨htable, hleft, hright, -⟩ := h
  have hcolumns := (Composed.whole hleft).link (g := " = ".toList) (by decide +kernel)
    (.whole hright)
  have hrest := (Composed.whole htable).link (g := " ON ".toList) (by decide +kernel) hcolumns
  have hkind : isLink (" " ++ j.kind.sql ++ " ").toList = true := by
    cases j.kind <;> decide +kernel
  rw [Join.toList_sql]
  exact .link hkind hrest

/-- Joins are composed of what each of them is. -/
theorem trails_joins {joins : List Join} (h : AllClosed (joins.flatMap Join.placed)) :
    Trails (String.join (joins.map fun j => " " ++ j.sql)).toList
      ((joins.flatMap Join.placed).map (·.2)) := by
  rw [String.toList_join]
  induction joins with
  | nil => exact .nil
  | cons j joins ih =>
    rw [List.flatMap_cons, allClosed_append] at h
    rw [List.flatMap_cons, List.map_append]
    exact (trails_join_sql h.1).append (ih h.2)

/-- A number has no pieces. -/
theorem composed_toString (n : Nat) : Composed (toString n).toList [] := by
  refine .of_connective ?_
  rw [Nat.toString_eq_ofList_toDigits, String.toList_ofList]
  have hdigits : Grammar.IsDigits (Nat.toDigits 10 n) :=
    ⟨Nat.toDigits_ne_nil, fun d hd => Nat.isDigit_of_mem_toDigits (by decide) (by decide) hd⟩
  have has := not_isAs_of_forall fun c hc => toUpper_ne_of_isDigit (hdigits.2 c hc)
  rw [Connective, Grammar.tokens_of_isDigits hdigits] at *
  have hnot := has _ (List.mem_singleton_self _)
  exact List.forall_mem_singleton.mpr (by simp [Token.isConnective, hnot])

/-- A column to order by is placed with its direction behind it. -/
theorem composed_order {o : String × Direction} (h : Closed o.1.toList) :
    Composed (o.1 ++ " " ++ o.2.sql).toList [o.1] := by
  have hdirection : Connective (" " ++ o.2.sql).toList := by
    cases o.2 <;> decide +kernel
  have hdelimited : Delimited (" " ++ o.2.sql).toList := by
    rw [String.toList_append]
    exact delimited_cons _ (by decide)
  rw [String.append_assoc, String.toList_append]
  exact (Composed.whole h).append hdelimited (.of_connective hdirection)

/-- What stands behind the conditions is composed of the columns to order by: limit and offset are
numbers. -/
theorem trails_tail {order : List (String × Direction)} (limit offset : Option UInt64)
    (h : ∀ o ∈ order, Closed o.1.toList) :
    Trails (Select.tail order limit offset).toList (order.map (·.1)) := by
  have horder := ComposedAll.map_single fun o ho => composed_order (h o ho)
  unfold Select.tail
  dsimp only
  rw [String.toList_append, String.toList_append]
  have hpieces : order.map (·.1) = order.map (·.1) ++ [] ++ [] := by simp
  rw [hpieces]
  refine (Trails.append ?order ?limit).append ?offset
  case order =>
    split
    · next hnone =>
      rw [List.isEmpty_iff, List.map_eq_nil_iff] at hnone
      rw [hnone]
      exact .nil
    · rw [String.toList_append]
      exact .link (by decide +kernel) (horder.intercalate (by decide +kernel))
  case limit =>
    cases limit with
    | none => exact .nil
    | some n =>
      rw [String.toList_append]
      exact .link (by decide +kernel) (composed_toString _)
  case offset =>
    cases offset with
    | none => exact .nil
    | some n =>
      rw [String.toList_append]
      exact .link (by decide +kernel) (composed_toString _)

/-- The texts of a list, each of them as it is. -/
theorem composedAll_of_closed {texts : List String} (h : ∀ s ∈ texts, Closed s.toList) :
    ComposedAll texts texts := by
  have hall := ComposedAll.map_single fun s hs => Composed.whole (h s hs)
  rwa [List.map_id'] at hall

/-- The text of a query, from those of its entries and its clauses. -/
theorem Select.composed_text (q : Select) {fields clauses m n : List String}
    (hfields : ComposedAll fields m) (htables : ∀ t ∈ q.tables, Closed t.toList)
    (hjoins : AllClosed (q.joins.flatMap Join.placed)) (hclauses : ComposedAll clauses n)
    (horder : ∀ o ∈ q.order, Closed o.1.toList) :
    Composed (q.text fields clauses).toList
      (m ++ (q.tables ++
        ((q.joins.flatMap Join.placed).map (·.2) ++ (n ++ q.order.map (·.1))))) := by
  have hlist : Composed (", ".intercalate fields).toList m :=
    hfields.intercalate (by decide +kernel)
  have hfrom : Composed (", ".intercalate q.tables).toList q.tables :=
    (composedAll_of_closed htables).intercalate (by decide +kernel)
  have hrest := (trails_joins hjoins).append
    ((trails_whereSuffix hclauses).append (trails_tail q.limit q.offset horder))
  rw [Select.toList_text]
  -- the keywords are links, so nothing grows together with what is placed
  have hbody := hlist.link (g := " FROM ".toList) (by decide +kernel)
    (hfrom.append hrest.delimited hrest.toComposed)
  exact hbody.lead (by decide +kernel)

/-- A text with the alias of a query behind it. -/
theorem composed_aliased {q : Select} {text : String} {pieces : List String}
    (h : Composed text.toList pieces)
    (halias : ∀ name ∈ q.alias?, Closed (" AS " ++ name).toList) :
    Composed (text ++ (match q.alias? with
      | none => ""
      | some name => " AS " ++ name)).toList
      (pieces ++ q.alias?.toList.map fun name => " AS " ++ name) := by
  rw [String.toList_append]
  cases hq : q.alias? with
  | none => exact h.append delimited_nil .nil
  | some name =>
    have hd : Delimited (" AS " ++ name).toList := by
      rw [String.toList_append]
      exact delimited_cons _ (by decide)
    exact h.append hd (.whole (halias name hq))

/-! ### Everything that is rendered -/

mutual

/-- The text of a query is composed of what is placed in it. -/
theorem Select.composed_of_render (q : Select) (hq : AllClosed q.placed) {a a' : Allocator}
    {sql : String} (h : q.render.outcome a = (.ok sql, a')) :
    Composed sql.toList (q.placed.map (·.2)) := by
  cases q with
  | mk fields tables joins clauses order limit offset alias? options fault =>
    rw [Select.placed] at hq ⊢
    simp only [allClosed_append] at hq
    obtain ⟨hfields, htables, hjoins, hclauses, horder⟩ := hq
    obtain ⟨-, -, -, texts, m, hfs, clauseTexts, hws, rfl⟩ := Select.render_ok h
    have hf := Field.composedAll_of_renderAll fields hfields hfs
    have hw := WhereClause.composedAll_of_renderAll clauses hclauses hws
    have htext := Select.composed_text
      ⟨fields, tables, joins, clauses, order, limit, offset, alias?, options, fault⟩ hf
      (fun t ht => htables _ (List.mem_map_of_mem ht)) hjoins hw
      (fun o ho => horder _ (List.mem_map_of_mem ho))
    simpa only [List.map_append, List.map_map, Function.comp_def, List.map_id'] using htext

/-- The text of an entry is composed of what is placed in it. -/
theorem Field.composed_of_render (f : Field) (hf : AllClosed f.placed) {a a' : Allocator}
    {sql : String} (h : f.render.outcome a = (.ok sql, a')) :
    Composed sql.toList (f.placed.map (·.2)) := by
  cases f with
  | column text =>
    rw [Field.placed] at hf ⊢
    rw [Field.render] at h
    cases h
    exact .whole (hf _ (List.mem_singleton_self _))
  | call call =>
    rw [Field.render, Render.outcome_liftExcept] at h
    have hsql : call.sql = .ok sql := (Prod.mk.inj h).1
    rw [Field.placed, hsql] at hf ⊢
    exact .whole (hf _ (List.mem_singleton_self _))
  | subquery query =>
    rw [Field.placed, allClosed_append] at hf
    obtain ⟨inner, hinner, rfl⟩ := Field.render_subquery_ok h
    have hquery := Select.composed_of_render query hf.1 hinner
    -- the name of the query is placed behind its parentheses
    have haliased := composed_aliased (composed_parenthesized hquery) fun name hname =>
      hf.2 _ (List.mem_map_of_mem (Option.mem_toList.mpr hname))
    rw [Field.placed, List.map_append, List.map_map]
    exact haliased

/-- The same for entries, from left to right. -/
theorem Field.composedAll_of_renderAll (fs : List Field) (hfs : AllClosed (Field.allPlaced fs))
    {a a' : Allocator} {texts : List String}
    (h : (Field.renderAll fs).outcome a = (.ok texts, a')) :
    ComposedAll texts ((Field.allPlaced fs).map (·.2)) := by
  cases fs with
  | nil =>
    obtain ⟨rfl, -⟩ := Field.renderAll_nil_ok h
    exact .nil
  | cons f rest =>
    rw [Field.allPlaced, allClosed_append] at hfs
    obtain ⟨sql, m, hf, sqls, hrest, rfl⟩ := Field.renderAll_cons_ok h
    rw [Field.allPlaced, List.map_append]
    exact .cons (Field.composed_of_render f hfs.1 hf)
      (Field.composedAll_of_renderAll rest hfs.2 hrest)

/-- The text of a condition is composed of what is placed in it. -/
theorem Condition.composed_of_render (c : Condition) (hc : AllClosed c.placed) {a a' : Allocator}
    {sql : String} (h : c.render.outcome a = (.ok sql, a')) :
    Composed sql.toList (c.placed.map (·.2)) := by
  cases c with
  | compare field op value =>
    rw [Condition.placed] at hc ⊢
    rw [Condition.render] at h
    cases h
    exact composed_test_value op (hc _ (List.mem_singleton_self _)) (composed_placeholder _)
  | nullCheck field op =>
    rw [Condition.placed] at hc ⊢
    rw [Condition.render] at h
    cases h
    rw [String.append_assoc, String.toList_append]
    exact (Composed.whole (hc _ (List.mem_singleton_self _))).append (delimited_last_operator op)
      (.of_connective (connective_operator op))
  | inList field op values =>
    rw [Condition.placed] at hc ⊢
    obtain ⟨-, rfl⟩ := Condition.render_inList_ok h
    rw [inList_text]
    exact composed_test_value op (hc _ (List.mem_singleton_self _))
      (composed_parenthesized ((composedAll_names a _).intercalate (by decide +kernel)))
  | between field op low high =>
    rw [Condition.placed] at hc ⊢
    rw [Condition.render] at h
    cases h
    -- the AND between the bounds is a link as any other
    have hbounds := (composed_placeholder a.next).link (g := " AND ".toList) (by decide +kernel)
      (composed_placeholder (a.next + 1))
    rw [← String.toList_append, ← String.toList_append] at hbounds
    rw [String.append_assoc, String.append_assoc]
    exact composed_test_value op (hc _ (List.mem_singleton_self _)) hbounds
  | pattern field op pattern =>
    rw [Condition.placed] at hc ⊢
    have hfield := hc _ (List.mem_singleton_self _)
    rcases Condition.render_pattern_ok h with ⟨-, -, rfl⟩ | ⟨-, -, rfl⟩
    · exact composed_test_value op hfield (composed_patternLiteral pattern)
    · exact composed_test_value op hfield (composed_placeholder _)
  | columns field op column =>
    rw [Condition.placed] at hc ⊢
    rw [AllClosed, List.forall_mem_cons, List.forall_mem_singleton] at hc
    rw [Condition.render] at h
    cases h
    exact composed_test op (.whole hc.1) (.whole hc.2)
  | subquery query op value =>
    rw [Condition.placed] at hc ⊢
    obtain ⟨inner, hinner, rfl⟩ := Condition.render_subquery_ok h
    have hquery := Select.composed_of_render query hc hinner
    have htest := composed_test op (composed_parenthesized hquery) (composed_placeholder a.next)
    rwa [subquery_text, ← List.append_nil (query.placed.map _)]
  | group combinator conditions =>
    rw [Condition.placed] at hc ⊢
    obtain ⟨texts, htexts, rfl⟩ := Condition.render_group_ok h
    exact composed_combinator_join combinator
      (Condition.composedAll_of_renderAll conditions hc htexts)
  | raw text =>
    rw [Condition.placed] at hc ⊢
    rw [Condition.render] at h
    cases h
    exact .whole (hc _ (List.mem_singleton_self _))

/-- The same for conditions, from left to right. -/
theorem Condition.composedAll_of_renderAll (cs : List Condition)
    (hcs : AllClosed (Condition.allPlaced cs)) {a a' : Allocator} {texts : List String}
    (h : (Condition.renderAll cs).outcome a = (.ok texts, a')) :
    ComposedAll texts ((Condition.allPlaced cs).map (·.2)) := by
  cases cs with
  | nil =>
    obtain ⟨rfl, -⟩ := Condition.renderAll_nil_ok h
    exact .nil
  | cons c rest =>
    rw [Condition.allPlaced, allClosed_append] at hcs
    obtain ⟨sql, m, hc, sqls, hrest, rfl⟩ := Condition.renderAll_cons_ok h
    rw [Condition.allPlaced, List.map_append]
    exact .cons (Condition.composed_of_render c hcs.1 hc)
      (Condition.composedAll_of_renderAll rest hcs.2 hrest)

/-- The same for a clause, whose conditions are joined by AND. -/
theorem WhereClause.composed_of_render (w : WhereClause) (hw : AllClosed w.placed)
    {a a' : Allocator} {sql : String} (h : w.render.outcome a = (.ok sql, a')) :
    Composed sql.toList (w.placed.map (·.2)) := by
  cases w with
  | mk first rest =>
    rw [WhereClause.placed, allClosed_append] at hw
    obtain ⟨texts, htexts, rfl⟩ := WhereClause.render_ok h
    obtain ⟨text, m, hfirst, sqls, hrest, rfl⟩ := Condition.renderAll_cons_ok htexts
    rw [WhereClause.placed, List.map_append]
    exact composed_joinNonempty .and (.cons (Condition.composed_of_render first hw.1 hfirst)
      (Condition.composedAll_of_renderAll rest hw.2 hrest))

/-- The same for clauses, from left to right. -/
theorem WhereClause.composedAll_of_renderAll (ws : List WhereClause)
    (hws : AllClosed (WhereClause.allPlaced ws)) {a a' : Allocator} {texts : List String}
    (h : (WhereClause.renderAll ws).outcome a = (.ok texts, a')) :
    ComposedAll texts ((WhereClause.allPlaced ws).map (·.2)) := by
  cases ws with
  | nil =>
    obtain ⟨rfl, -⟩ := WhereClause.renderAll_nil_ok h
    exact .nil
  | cons w rest =>
    rw [WhereClause.allPlaced, allClosed_append] at hws
    obtain ⟨sql, m, hw, sqls, hrest, rfl⟩ := WhereClause.renderAll_cons_ok h
    rw [WhereClause.allPlaced, List.map_append]
    exact .cons (WhereClause.composed_of_render w hws.1 hw)
      (WhereClause.composedAll_of_renderAll rest hws.2 hrest)

end

end SqlAssembly

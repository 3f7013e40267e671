import SqlAssembly.Proofs.Query.Predicates

namespace SqlAssembly

/-!
# Conditions are read as they were meant

The text of a WHERE part is read as the conjunction of its conditions, every group as a node of its
own.

* `Condition.outline` — the condition that a text should be read as, with the predicates as they
  are rendered; a group of nothing asks for nothing, and one of a single member is that member;
* `Reading`, `Readings` — texts that are nothing or read as certain conjuncts or disjuncts;
* `Condition.Outlined`, `Condition.outlined_of_sound` — sound conditions are read so;
* `WhereClause.read_whereSuffix` — and so are clauses.
-/

open Grammar Sql

/-! ### What should be read -/

mutual

/-- The condition that the text of a condition should be read as. -/
def Condition.outline : Condition → Render (Option BoolTree)
  | .group combinator conditions => do
    let trees ← Condition.outlineAll conditions
    return BoolTree.combine combinator trees
  | c => do
    let sql ← c.render
    return some (.predicate (tokens sql.toList))

/-- The conditions that the texts of several should be read as, without those that ask for
nothing. -/
def Condition.outlineAll : List Condition → Render (List BoolTree)
  | [] => return []
  | c :: rest => do
    let tree? ← c.outline
    let trees ← Condition.outlineAll rest
    return tree?.toList ++ trees

end

/-- All conditions of some clauses. -/
def WhereClause.outlineAll : List WhereClause → Render (List BoolTree)
  | [] => return []
  | w :: rest => do
    let trees ← Condition.outlineAll w.conditions
    let others ← WhereClause.outlineAll rest
    return trees ++ others

/-- The outline of a condition that is no group. -/
theorem Condition.outline_predicate {c : Condition} (hc : c.IsPredicate)
    {a a' : Allocator} {sql : String} (h : c.render.outcome a = (.ok sql, a')) :
    c.outline.outcome a = (.ok (some (.predicate (tokens sql.toList))), a') := by
  have houtline : c.outline = do
      let sql ← c.render
      return some (.predicate (tokens sql.toList)) := by
    cases c
    case group k cs => exact hc.elim
    all_goals rfl
  rw [houtline]
  exact Render.bind_eq_ok.mpr ⟨sql, a', h, rfl⟩

/-- The outline of a group is a node over the outlines of its members. -/
theorem Condition.outline_group (combinator : Combinator) {conditions : List Condition}
    {a a' : Allocator} {trees : List BoolTree}
    (h : (outlineAll conditions).outcome a = (.ok trees, a')) :
    (group combinator conditions).outline.outcome a
      = (.ok (BoolTree.combine combinator trees), a') := by
  rw [outline]
  exact Render.bind_eq_ok.mpr ⟨trees, a', h, rfl⟩

/-! ### Texts that are read -/

/-- A text with tokens that are read as something. -/
structure ReadsText {α : Type} (P : List Token → List α → Prop) (sql : String) (trees : List α) :
    Prop where
  closed : Closed sql.toList
  reads : P (tokens sql.toList) trees
  text : sql ≠ ""
  trees : trees ≠ []

/-- A text that is nothing or read as something. -/
def Reading {α : Type} (P : List Token → List α → Prop) (sql : String) (trees : List α) : Prop :=
  (sql = "" ∧ trees = []) ∨ ReadsText P sql trees

/-- Texts that are nothing or read as something, with all that is read together. -/
inductive Readings {α : Type} (P : List Token → List α → Prop) : List String → List α → Prop
  | nil : Readings P [] []
  | cons {sql : String} {sqls : List String} {trees others : List α}
    (hsql : Reading P sql trees) (hsqls : Readings P sqls others) :
    Readings P (sql :: sqls) (trees ++ others)

/-- One conjunct may be read as something else. -/
theorem Reading.imp {P : List Token → List BoolTree → Prop} (hP : ∀ {ts t}, Reads ts [t] → P ts [t])
    {sql : String} {tree? : Option BoolTree} (h : Reading Reads sql tree?.toList) :
    Reading P sql tree?.toList := by
  cases tree? with
  | none =>
    rcases h with hnothing | ⟨-, -, -, htrees⟩
    · exact .inl hnothing
    · exact absurd rfl htrees
  | some t =>
    rcases h with ⟨-, htrees⟩ | ⟨hclosed, hreads, htext, htrees⟩
    · cases htrees
    · exact .inr ⟨hclosed, hP hreads, htext, htrees⟩

/-- A text that is read as a predicate. -/
theorem readsText_predicate {sql : String} (hclosed : Closed sql.toList)
    (hreads : Reads (tokens sql.toList) [.predicate (tokens sql.toList)]) :
    ReadsText Reads sql [.predicate (tokens sql.toList)] := by
  refine ⟨hclosed, hreads, ?_, nofun⟩
  rintro rfl
  exact hreads.1.ne_nil (by simp)

/-! ### Conditions put together -/

section

variable {α : Type} {P : List Token → List α → Prop} {g : String} {t : Token}

/-- Two texts with a separator between them. -/
theorem ReadsText.append (hgap : isGap g.toList = true) (hd : Delimited g.toList)
    (hsep : tokens g.toList = [t])
    (hP : ∀ {ts us trees others}, P ts trees → P us others → P (ts ++ t :: us) (trees ++ others))
    {sql rest : String} {trees others : List α} (hsql : ReadsText P sql trees)
    (hrest : ReadsText P rest others) : ReadsText P (sql ++ g ++ rest) (trees ++ others) := by
  have htext : (sql ++ g ++ rest).toList = sql.toList ++ (g.toList ++ rest.toList) := by
    simp only [String.toList_append, List.append_assoc]
  have hdelimited := delimited_gap_append hgap hd rest.toList
  refine ⟨?_, ?_, ?_, ?_⟩
  · rw [htext]
    exact hsql.closed.append hdelimited (.gap hgap hrest.closed)
  · rw [htext, tokens_append hsql.closed hdelimited, tokens_gap hgap, hsep]
    exact hP hsql.reads hrest.reads
  · simp [hsql.text]
  · simp [hsql.trees]

/-- Texts are read together, with a separator between those that are something. -/
theorem Readings.join (hgap : isGap g.toList = true) (hd : Delimited g.toList)
    (hsep : tokens g.toList = [t])
    (hP : ∀ {ts us trees others}, P ts trees → P us others → P (ts ++ t :: us) (trees ++ others))
    {texts : List String} {trees : List α} (h : Readings P texts trees) :
    Reading P (joinNonempty g texts) trees := by
  unfold joinNonempty
  -- whether anything is left over decides if a separator stands before it
  suffices h : (texts.filter (fun text => !text.isEmpty) = [] ∧ trees = []) ∨
      (texts.filter (fun text => !text.isEmpty) ≠ [] ∧
        ReadsText P (g.intercalate (texts.filter fun text => !text.isEmpty)) trees) by
    rcases h with ⟨hnil, rfl⟩ | ⟨-, htext⟩
    · exact .inl ⟨by rw [hnil, String.intercalate_nil], rfl⟩
    · exact .inr htext
  induction h with
  | nil => exact .inl ⟨rfl, rfl⟩
  | @cons sql sqls trees others hsql _ ih =>
    rcases hsql with ⟨rfl, rfl⟩ | hsql
    · exact ih
    -- this text is kept, with a separator behind it if any other one is
    · have hkeep : (sql :: sqls).filter (fun text => !text.isEmpty)
          = sql :: sqls.filter fun text => !text.isEmpty := by
        simp [hsql.text]
      rw [hkeep]
      refine .inr ⟨nofun, ?_⟩
      rcases ih with ⟨hnil, rfl⟩ | ⟨hne, hrest⟩
      · rw [hnil, String.intercalate_singleton, List.append_nil]
        exact hsql
      · rw [String.intercalate_cons_of_ne_nil hne]
        exact hsql.append hgap hd hsep hP hrest

end

/-- Conjuncts are read together with AND between them. -/
theorem Readings.join_and {texts : List String} {trees : List BoolTree}
    (h : Readings Reads texts trees) : Reading Reads (joinNonempty " AND " texts) trees :=
  h.join (g := " AND ") (by decide) (delimited_cons _ (by decide)) tokens_and Reads.and

/-- Disjuncts are read together with OR between them. -/
theorem Readings.join_or {texts : List String} {trees : List BoolTree}
    (h : Readings ReadsAny texts trees) : Reading ReadsAny (joinNonempty " OR " texts) trees :=
  h.join (g := " OR ") (by decide) (delimited_cons _ (by decide)) tokens_or ReadsAny.or

/-! ### Groups -/

/-- What is read as conjuncts is read as one condition, the conjunction of them. -/
theorem ReadsText.any {sql : String} {trees : List BoolTree} (h : ReadsText Reads sql trees) :
    ReadsText ReadsAny sql (BoolTree.combine .and trees).toList where
  closed := h.closed
  reads := h.reads.any
  text := h.text
  trees := by
    rw [ne_eq, Option.toList_eq_nil_iff, BoolTree.combine_eq_none]
    exact h.trees

/-- The same for a text that may be nothing. -/
theorem Reading.any {sql : String} {trees : List BoolTree} (h : Reading Reads sql trees) :
    Reading ReadsAny sql (BoolTree.combine .and trees).toList := by
  rcases h with ⟨rfl, rfl⟩ | h
  · exact .inl ⟨rfl, rfl⟩
  · exact .inr h.any

/-- Between parentheses, disjuncts are one conjunct; without any, nothing is left. -/
theorem Reading.group {sql : String} {trees : List BoolTree} (h : Reading ReadsAny sql trees) :
    Reading Reads (if sql.isEmpty then "" else "(" ++ sql ++ ")")
      (BoolTree.combine .or trees).toList := by
  rcases h with ⟨rfl, rfl⟩ | ⟨hclosed, hreads, htext, htrees⟩
  · exact .inl ⟨rfl, rfl⟩
  · rw [if_neg (by rwa [String.isEmpty_iff])]
    cases htree : BoolTree.combine .or trees with
    | none => exact absurd (BoolTree.combine_eq_none.mp htree) htrees
    | some t =>
      refine .inr ⟨?_, ?_, ?_, nofun⟩
      · rw [toList_parenthesized]
        exact hclosed.wrap
      · rw [tokens_parenthesized hclosed]
        exact hreads.group htree
      · simp

/-- The members of a group stand in a node of their own. -/
theorem reading_join_and {texts : List String} {trees : List BoolTree}
    (h : Readings Reads texts trees) :
    Reading Reads (Combinator.and.join texts) (BoolTree.combine .and trees).toList := by
  have hgroup := h.join_and.any.group
  rwa [BoolTree.combine_toList] at hgroup

/-- A group by OR is read as one condition, the disjunction of its members, or it is nothing. -/
theorem reading_join_or {texts : List String} {trees : List BoolTree}
    (h : Readings ReadsAny texts trees) :
    Reading Reads (Combinator.or.join texts) (BoolTree.combine .or trees).toList :=
  h.join_or.group

/-! ### All conditions -/

/-- Whenever it is rendered, the text of the condition is read as outlined. -/
def Condition.Outlined (c : Condition) : Prop :=
  ∀ ⦃a a' : Allocator⦄ ⦃sql : String⦄, c.render.outcome a = (.ok sql, a') →
    ∃ tree?, c.outline.outcome a = (.ok tree?, a') ∧ Reading Reads sql tree?.toList

/-- A sound condition that is no group is read as the one predicate that it is. -/
theorem Condition.outlined_of_predicate {c : Condition} (hc : c.IsPredicate)
    (hsound : c.Sound) (hcalls : ∀ column ∈ c.testedColumns, ¬ CallsReserved column) :
    c.Outlined := by
  intro a a' sql h
  refine ⟨_, outline_predicate hc h, .inr (readsText_predicate ?_ ?_)⟩
  · exact (phrase_of_sound hsound h).closed
  · exact reads_of_render hc hsound hcalls h

/-- Conditions are read one by one, as conjuncts or as disjuncts. -/
theorem Condition.readings_of_renderAll {P : List Token → List BoolTree → Prop}
    (hP : ∀ {ts t}, Reads ts [t] → P ts [t]) {cs : List Condition} (hcs : ∀ c ∈ cs, c.Outlined)
    {a a' : Allocator} {texts : List String}
    (h : (Condition.renderAll cs).outcome a = (.ok texts, a')) :
    ∃ trees, (Condition.outlineAll cs).outcome a = (.ok trees, a') ∧ Readings P texts trees := by
  induction cs generalizing a texts with
  | nil =>
    obtain ⟨rfl, rfl⟩ := Condition.renderAll_nil_ok h
    exact ⟨[], by rw [outlineAll]; rfl, .nil⟩
  | cons c cs ih =>
    rw [List.forall_mem_cons] at hcs
    obtain ⟨sql, m, hc, sqls, hrest, rfl⟩ := Condition.renderAll_cons_ok h
    obtain ⟨tree?, houtline, hreading⟩ := hcs.1 hc
    obtain ⟨trees, houtlines, hreadings⟩ := ih hcs.2 hrest
    refine ⟨tree?.toList ++ trees, ?_, .cons (hreading.imp hP) hreadings⟩
    rw [outlineAll]
    exact Render.bind_eq_ok.mpr ⟨tree?, m, houtline,
      Render.bind_eq_ok.mpr ⟨trees, a', houtlines, rfl⟩⟩

/-- A group is read as a node over its members. -/
theorem Condition.outlined_group {combinator : Combinator} {conditions : List Condition}
    (hconditions : ∀ c ∈ conditions, c.Outlined) : (group combinator conditions).Outlined := by
  intro a a' sql h
  obtain ⟨texts, htexts, rfl⟩ := Condition.render_group_ok h
  -- the members are conjuncts of an AND, but disjuncts of an OR
  cases combinator with
  | and =>
    obtain ⟨trees, htrees, hreadings⟩ := readings_of_renderAll id hconditions htexts
    exact ⟨_, outline_group .and htrees, reading_join_and hreadings⟩
  | or =>
    obtain ⟨trees, htrees, hreadings⟩ := readings_of_renderAll Reads.any hconditions htexts
    exact ⟨_, outline_group .or htrees, reading_join_or hreadings⟩

/-- Sound conditions are read as outlined. -/
theorem Condition.outlined_of_sound {c : Condition} (hsound : c.Sound)
    (hcalls : ∀ column ∈ c.testedColumns, ¬ CallsReserved column) : c.Outlined := by
  cases hsound with
  | @group combinator conditions hconditions =>
    refine outlined_group fun c hc => outlined_of_sound (hconditions c hc) fun column hcolumn => ?_
    -- what a member tests, the group tests
    apply hcalls
    rw [testedColumns]
    exact mem_allTestedColumns hc hcolumn
  | compare value hfield hop =>
    exact outlined_of_predicate trivial (.compare value hfield hop) hcalls
  | nullCheck hfield hop => exact outlined_of_predicate trivial (.nullCheck hfield hop) hcalls
  | inList values hfield hop =>
    exact outlined_of_predicate trivial (.inList values hfield hop) hcalls
  | between low high hfield hop =>
    exact outlined_of_predicate trivial (.between low high hfield hop) hcalls
  | pattern text hfield hop =>
    exact outlined_of_predicate trivial (.pattern text hfield hop) hcalls
  | columns hfield hop hcolumn =>
    exact outlined_of_predicate trivial (.columns hfield hop hcolumn) hcalls
  | subquery value hquery hop =>
    exact outlined_of_predicate trivial (.subquery value hquery hop) hcalls

/-! ### What asks for nothing -/

mutual

/-- Exactly what asks for nothing has no outline. -/
theorem Condition.outline_eq_none : ∀ (c : Condition) {a a' : Allocator} {tree? : Option BoolTree},
    c.outline.outcome a = (.ok tree?, a') → (tree? = none ↔ c.isEmpty = true)
  | .group combinator conditions, a, a', tree?, h => by
    rw [outline] at h
    obtain ⟨trees, m, htrees, h⟩ := Render.bind_eq_ok.mp h
    cases h
    rw [BoolTree.combine_eq_none, isEmpty]
    exact outlineAll_eq_nil conditions htrees
  | .compare _ _ _, _, _, _, h | .nullCheck _ _, _, _, _, h | .inList _ _ _, _, _, _, h
  | .between _ _ _ _, _, _, _, h | .pattern _ _ _, _, _, _, h | .columns _ _ _, _, _, _, h
  | .subquery _ _ _, _, _, _, h | .raw _, _, _, _, h => by
    obtain ⟨sql, m, -, h⟩ := Render.bind_eq_ok.mp h
    cases h
    simp [isEmpty]

/-- Conditions ask for nothing if all of them are empty. -/
theorem Condition.outlineAll_eq_nil : ∀ (cs : List Condition) {a a' : Allocator}
    {trees : List BoolTree}, (outlineAll cs).outcome a = (.ok trees, a') →
    (trees = [] ↔ allEmpty cs = true)
  | [], a, a', trees, h => by
    rw [outlineAll] at h
    cases h
    simp [allEmpty]
  | c :: cs, a, a', trees, h => by
    rw [outlineAll] at h
    obtain ⟨tree?, m, htree, h⟩ := Render.bind_eq_ok.mp h
    obtain ⟨others, m', hothers, h⟩ := Render.bind_eq_ok.mp h
    cases h
    rw [List.append_eq_nil_iff, Option.toList_eq_nil_iff, outline_eq_none c htree,
      outlineAll_eq_nil cs hothers, allEmpty, Bool.and_eq_true]

end

/-- All conditions are empty if each of them is. -/
theorem Condition.allEmpty_iff {cs : List Condition} :
    allEmpty cs = true ↔ ∀ c ∈ cs, c.isEmpty = true := by
  induction cs with
  | nil => simp [allEmpty]
  | cons c cs ih => rw [allEmpty, Bool.and_eq_true, ih, List.forall_mem_cons]

/-- Clauses ask for nothing if all of their conditions are empty. -/
theorem WhereClause.outlineAll_eq_nil {clauses : List WhereClause} {a a' : Allocator}
    {trees : List BoolTree} (h : (outlineAll clauses).outcome a = (.ok trees, a')) :
    trees = [] ↔ ∀ w ∈ clauses, ∀ c ∈ w.conditions, c.isEmpty = true := by
  induction clauses generalizing a trees with
  | nil =>
    rw [outlineAll] at h
    cases h
    simp
  | cons w clauses ih =>
    rw [outlineAll] at h
    obtain ⟨first, m, hfirst, h⟩ := Render.bind_eq_ok.mp h
    obtain ⟨others, m', hothers, h⟩ := Render.bind_eq_ok.mp h
    cases h
    rw [List.append_eq_nil_iff, Condition.outlineAll_eq_nil w.conditions hfirst,
      Condition.allEmpty_iff, ih hothers, List.forall_mem_cons]

/-! ### Clauses -/

/-- Clauses are read one by one, each as the conjuncts of its conditions. -/
theorem WhereClause.readings_of_renderAll {clauses : List WhereClause}
    (hclauses : ∀ w ∈ clauses, ∀ c ∈ w.conditions, c.Outlined) {a a' : Allocator}
    {texts : List String} (h : (renderAll clauses).outcome a = (.ok texts, a')) :
    ∃ trees, (outlineAll clauses).outcome a = (.ok trees, a') ∧ Readings Reads texts trees := by
  induction clauses generalizing a texts with
  | nil =>
    obtain ⟨rfl, rfl⟩ := renderAll_nil_ok h
    exact ⟨[], rfl, .nil⟩
  | cons w clauses ih =>
    rw [List.forall_mem_cons] at hclauses
    obtain ⟨sql, m, hw, sqls, hrest, rfl⟩ := renderAll_cons_ok h
    obtain ⟨members, hmembers, rfl⟩ := render_ok hw
    obtain ⟨trees, htrees, hreadings⟩ := Condition.readings_of_renderAll id hclauses.1 hmembers
    obtain ⟨others, hothers, hreadings'⟩ := ih hclauses.2 hrest
    refine ⟨trees ++ others, ?_, .cons hreadings.join_and hreadings'⟩
    rw [outlineAll]
    exact Render.bind_eq_ok.mpr ⟨trees, m, htrees, Render.bind_eq_ok.mpr ⟨others, a', hothers, rfl⟩⟩

/-- Texts that are read as disjuncts, or nothing, make a WHERE part. -/
theorem readWhere_of_reading {texts : List String} {trees : List BoolTree}
    (h : Reading ReadsAny (joinNonempty " AND " texts) trees) :
    readWhere (whereSuffix texts) = some (BoolTree.combine .or trees) ∧
      (whereSuffix texts = "" ↔ trees = []) := by
  unfold whereSuffix
  dsimp only
  rcases h with ⟨hnothing, rfl⟩ | ⟨-, hreads, htext, htrees⟩
  · rw [hnothing]
    refine ⟨?_, by simp⟩
    simp [readWhere, BoolTree.combine]
  · rw [if_neg (by rwa [String.isEmpty_iff])]
    refine ⟨?_, by simp [htrees]⟩
    have hwhere : tokens " WHERE ".toList = [.word ['W', 'H', 'E', 'R', 'E']] := by
      simp [tokens_blank, tokens_word, Text.isBlank, isWordHead, Text.isWordChar]
    -- the keyword is one token, and the conditions are read behind it
    have htokens : tokens (" WHERE " ++ joinNonempty " AND " texts).toList
        = .word ['W', 'H', 'E', 'R', 'E'] :: tokens (joinNonempty " AND " texts).toList := by
      rw [String.toList_append, tokens_gap (by decide), hwhere]
      rfl
    obtain ⟨t, ht⟩ : ∃ t, BoolTree.combine .or trees = some t :=
      Option.ne_none_iff_exists'.mp (mt BoolTree.combine_eq_none.mp htrees)
    simp only [readWhere, htokens]
    rw [if_pos (by simp [Token.isKeyword]), hreads.readCondition_eq, ht]
    rfl

/-- A text that is read as conjuncts, or nothing, makes a WHERE part. -/
theorem readWhere_whereSuffix {texts : List String} {trees : List BoolTree}
    (h : Readings Reads texts trees) :
    readWhere (whereSuffix texts) = some (BoolTree.combine .and trees) ∧
      (whereSuffix texts = "" ↔ trees = []) := by
  -- the conjuncts are a single disjunct, which stands for itself
  have hread := readWhere_of_reading h.join_and.any
  rwa [BoolTree.combine_toList, Option.toList_eq_nil_iff, BoolTree.combine_eq_none] at hread

namespace WhereClause

/-- The WHERE part of classified filters is read as the AND of their conditions in order, and it is
empty when nothing is asked for. -/
theorem read_whereSuffix {clauses : List WhereClause}
    (hmade : ∀ w ∈ clauses, ∀ c ∈ w.conditions, c.Made)
    (hcalls : ∀ w ∈ clauses, ∀ c ∈ w.conditions, ∀ column ∈ c.testedColumns,
      ¬ CallsReserved column)
    {a a' : Allocator} {texts : List String} (h : (renderAll clauses).outcome a = (.ok texts, a')) :
    ∃ trees, (outlineAll clauses).outcome a = (.ok trees, a') ∧
      readWhere (whereSuffix texts) = some (BoolTree.combine .and trees) ∧
      (whereSuffix texts = "" ↔ trees = []) ∧
      (trees = [] ↔ ∀ w ∈ clauses, ∀ c ∈ w.conditions, c.isEmpty = true) := by
  have houtlined : ∀ w ∈ clauses, ∀ c ∈ w.conditions, c.Outlined := by
    intro w hw c hc
    obtain ⟨f, hf, hclassify⟩ := hmade w hw c hc
    exact Condition.outlined_of_sound (Filter.sound_of_made hf hclassify) (hcalls w hw c hc)
  obtain ⟨trees, htrees, hreadings⟩ := readings_of_renderAll houtlined h
  obtain ⟨hread, hempty⟩ := readWhere_whereSuffix hreadings
  exact ⟨trees, htrees, hread, hempty, outlineAll_eq_nil htrees⟩

/-- A range beside groups, empty ones among them, a pattern with an OR in it, and a subquery. -/
theorem read_whereSuffix_groups :
    let query := (({} : Select).field (.column "id")).table "u"
    let range : Condition := .between "\"a\"" .between (.int 1) (.int 5)
    let pattern : Condition := .pattern "LOWER(\"b\")" .like "' OR '"
    let clauses : List WhereClause := [
      ⟨range, [.group .or [.group .and [], .group .and [pattern, range], range]]⟩,
      ⟨.group .or [.group .and []], []⟩,
      ⟨.subquery query .gt (.int 7), []⟩]
    let sql := " WHERE \"a\" BETWEEN $0 AND $1 AND " ++
      "((LOWER(\"b\") LIKE ''' OR ''' AND \"a\" BETWEEN $2 AND $3) OR \"a\" BETWEEN $4 AND $5) AND " ++
      "(SELECT \"id\" FROM \"u\") > $6"
    (∃ texts a', (renderAll clauses).outcome .new = (.ok texts, a') ∧ whereSuffix texts = sql) ∧
      readWhere sql = some (some (.joined .and [
        .predicate (tokens "\"a\" BETWEEN $0 AND $1".toList),
        .joined .or [
          .joined .and [
            .predicate (tokens "LOWER(\"b\") LIKE ''' OR '''".toList),
            .predicate (tokens "\"a\" BETWEEN $2 AND $3".toList)],
          .predicate (tokens "\"a\" BETWEEN $4 AND $5".toList)],
        .predicate (tokens "(SELECT \"id\" FROM \"u\") > $6".toList)])) := by
  intro query range pattern clauses sql
  -- the filters that the conditions come from
  have hrange : range.Made := by
    have hfield : fieldOf (.value (.text "a")) = .ok "\"a\"" := by decide +kernel
    have hop : operatorOf "between" = .ok .between := by decide +kernel
    refine ⟨.test (.value (.text "a")) "between" (some (.list [.int 1, .int 5])),
      .test _ (.value _) fun o ho => Option.some.inj ho ▸ .list _, ?_⟩
    show Condition.test _ _ _ = _
    rw [Condition.test, hfield, hop]
    rfl
  have hpattern : pattern.Made := by
    have hfield : fieldOf (.value (.text "lower(b)")) = .ok "LOWER(\"b\")" := by decide +kernel
    have hop : operatorOf "like" = .ok .like := by decide +kernel
    refine ⟨.test (.value (.text "lower(b)")) "like" (some (.value (.text "' OR '"))),
      .test _ (.value _) fun o ho => Option.some.inj ho ▸ .value _, ?_⟩
    show Condition.test _ _ _ = _
    rw [Condition.test, hfield, hop]
    rfl
  have hsubquery : Condition.Made (.subquery query .gt (.int 7)) := by
    have hquery : query.Made := .table "u" (.field .new (.column "id"))
    have hop : operatorOf ">" = .ok .gt := by decide +kernel
    refine ⟨.test (.select query) ">" (some (.value (.int 7))),
      .test _ (.select hquery) fun o ho => Option.some.inj ho ▸ .value _, ?_⟩
    rw [Condition.classify, Condition.compareSubquery, hop]
    rfl
  have hnone : Condition.Made (.group .and []) := .group .and nofun
  have hgroup : Condition.Made (.group .or [.group .and [], .group .and [pattern, range], range]) := by
    have hboth : Condition.Made (.group .and [pattern, range]) :=
      .group .and (by simp [hpattern, hrange])
    exact .group .or (by simp [hnone, hboth, hrange])
  have hmade : ∀ w ∈ clauses, ∀ c ∈ w.conditions, c.Made := by
    have hempty : Condition.Made (.group .or [.group .and []]) := .group .or (by simp [hnone])
    simp [clauses, conditions, hrange, hgroup, hempty, hsubquery]
  have hcalls : ∀ w ∈ clauses, ∀ c ∈ w.conditions, ∀ column ∈ c.testedColumns,
      ¬ CallsReserved column := by decide +kernel
  have hrender : ∃ texts a', (renderAll clauses).outcome .new = (.ok texts, a') ∧
      whereSuffix texts = sql := by
    have htexts : ((renderAll clauses).outcome .new).1 = .ok [
        "\"a\" BETWEEN $0 AND $1 AND ((LOWER(\"b\") LIKE ''' OR ''' AND " ++
          "\"a\" BETWEEN $2 AND $3) OR \"a\" BETWEEN $4 AND $5)",
        "", "(SELECT \"id\" FROM \"u\") > $6"] := by decide +kernel
    exact ⟨_, _, Prod.ext htexts rfl, by decide +kernel⟩
  refine ⟨hrender, ?_⟩
  obtain ⟨texts, a', htexts, hsql⟩ := hrender
  obtain ⟨trees, htrees, hread, -⟩ := read_whereSuffix hmade hcalls htexts
  have houtline : ((outlineAll clauses).outcome .new).1 = .ok [
      .predicate (tokens "\"a\" BETWEEN $0 AND $1".toList),
      .joined .or [
        .joined .and [
          .predicate (tokens "LOWER(\"b\") LIKE ''' OR '''".toList),
          .predicate (tokens "\"a\" BETWEEN $2 AND $3".toList)],
        .predicate (tokens "\"a\" BETWEEN $4 AND $5".toList)],
      .predicate (tokens "(SELECT \"id\" FROM \"u\") > $6".toList)] := by decide +kernel
  rw [htrees] at houtline
  rw [← hsql, hread, Except.ok.inj houtline]
  rfl

end WhereClause

end SqlAssembly

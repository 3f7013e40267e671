import SqlAssembly.Proofs.Query.Embedding
import SqlAssembly.Proofs.Query.Predicates
import SqlAssembly.Proofs.Sql.Fragment

namespace SqlAssembly

/-!
# Conditions with SQL text of the caller's own

Sound conditions, and beside them, or in any query that they embed, SQL text of the caller's own
that is a condition by itself.

* `Select.Whole`, `Condition.Whole` — queries and conditions of these;
* `Select.isPhrase_of_whole`, `Condition.isPhrase_of_whole` — their texts close what they open;
* `Filter.whole_of_classify` — whatever is classified of such filters is whole.
-/

open Grammar Sql

/-! ### What is known -/

mutual

/-- The texts of a query are quoted, and its entries and conditions are whole. -/
inductive Select.Whole : Select → Prop
  | intro {q : Select} (hframe : Select.Sound { q with fields := [], clauses := [] })
    (hfields : ∀ f ∈ q.fields, f.Whole) (hclauses : ∀ w ∈ q.clauses, ∀ c ∈ w.conditions, c.Whole) :
    q.Whole

/-- An entry is sound, or a whole query. -/
inductive Field.Whole : Field → Prop
  | sound {f : Field} (hf : f.Sound) : f.Whole
  | subquery {query : Select} (hquery : query.Whole) : Field.Whole (.subquery query)

/-- A condition is sound, or a complete text, or put together of whole ones. -/
inductive Condition.Whole : Condition → Prop
  | sound {c : Condition} (hc : c.Sound) : c.Whole
  | raw {sql : String} (hsql : Complete sql) : Condition.Whole (.raw sql)
  | subquery {query : Select} {op : Operator} (value : Value) (hquery : query.Whole)
    (hop : op.cls = .comparison) : Condition.Whole (.subquery query op value)
  | group (combinator : Combinator) {conditions : List Condition}
    (hconditions : ∀ c ∈ conditions, c.Whole) : Condition.Whole (.group combinator conditions)

end

/-- Filters with queries and texts of which the same is known. -/
inductive Filter.Whole : Filter → Prop
  | test {subject : Operand} (op : String) (operand : Option Operand)
    (hsubject : ∀ query, subject = .select query → query.Whole) :
    Filter.Whole (.test subject op operand)
  | group (combinator : Combinator) {filters : List Filter} (hfilters : ∀ f ∈ filters, f.Whole) :
    Filter.Whole (.group combinator filters)
  | raw {sql : String} (hsql : Complete sql) : Filter.Whole (.raw sql)

/-- A sound query is whole. -/
theorem Select.whole_of_sound {q : Select} (h : q.Sound) : q.Whole := by
  obtain ⟨hfields, htables, hjoins, hclauses, horder, halias⟩ := h
  -- without its entries and clauses a query is sound for want of any
  exact ⟨⟨nofun, htables, hjoins, nofun, horder, halias⟩, fun f hf => .sound (hfields f hf),
    fun w hw c hc => .sound (hclauses w hw c hc)⟩

/-- A whole query stays whole with another whole clause. -/
theorem Select.Whole.addClause {q : Select} (hq : q.Whole) {clause : Except Error WhereClause}
    (hclause : ∀ w, clause = .ok w → ∀ c ∈ w.conditions, c.Whole) : (q.addClause clause).Whole := by
  obtain ⟨hframe, hfields, hclauses⟩ := hq
  cases clause with
  | ok w =>
    exact ⟨hframe, hfields, List.forall_mem_append.mpr
      ⟨hclauses, List.forall_mem_singleton.mpr (hclause w rfl)⟩⟩
  | error e => exact ⟨hframe.congr rfl rfl rfl rfl rfl rfl, hfields, hclauses⟩

/-! ### Texts that close what they open -/

/-- The text is a phrase, whatever placeholders it has. -/
def IsPhrase (sql : String) : Prop := ∃ names, Phrase sql.toList names

/-- A text that is a condition by itself closes what it opens. -/
theorem Sql.Complete.isPhrase {sql : String} (h : Complete sql) : IsPhrase sql := by
  obtain ⟨tree, htree⟩ := h.reads
  -- what is read as a condition closes its parentheses
  obtain ⟨-, -, -, -, hbalanced⟩ := exists_readsPieces h.opening htree
  exact ⟨_, h.closed, hbalanced, List.Perm.refl _⟩

/-- Phrases one by one have their placeholders together. -/
theorem exists_phrases {texts : List String} (h : ∀ sql ∈ texts, IsPhrase sql) :
    ∃ names, Phrases texts names := by
  induction texts with
  | nil => exact ⟨[], .nil⟩
  | cons sql texts ih =>
    rw [List.forall_mem_cons] at h
    obtain ⟨m, hm⟩ := h.1
    obtain ⟨n, hn⟩ := ih h.2
    exact ⟨m ++ n, .cons hm hn⟩

/-- What every text is that a rendering gives, every text of a list is. -/
theorem Render.forall_of_mapM {α : Type} {r : α → Render String} {P : String → Prop} {xs : List α}
    (hxs : ∀ x ∈ xs, ∀ ⦃a a' sql⦄, (r x).outcome a = (.ok sql, a') → P sql) {a a' : Allocator}
    {texts : List String} (h : (xs.mapM r).outcome a = (.ok texts, a')) :
    ∀ sql ∈ texts, P sql := by
  induction xs generalizing a texts with
  | nil =>
    rw [List.mapM_nil] at h
    cases h
    exact nofun
  | cons x xs ih =>
    rw [List.mapM_cons] at h
    obtain ⟨sql, m, hsql, h⟩ := Render.bind_eq_ok.mp h
    obtain ⟨sqls, m', hsqls, h⟩ := Render.bind_eq_ok.mp h
    cases h
    rw [List.forall_mem_cons] at hxs ⊢
    exact ⟨hxs.1 hsql, ih hxs.2 hsqls⟩

/-- If the text of every condition closes what it opens, so does the text of the clause. -/
theorem WhereClause.isPhrase_of_render {w : WhereClause}
    (hw : ∀ c ∈ w.conditions, ∀ ⦃a a' sql⦄, c.render.outcome a = (.ok sql, a') → IsPhrase sql)
    {a a' : Allocator} {sql : String} (h : w.render.outcome a = (.ok sql, a')) : IsPhrase sql := by
  obtain ⟨texts, htexts, rfl⟩ := WhereClause.render_ok h
  rw [Condition.renderAll_eq_mapM] at htexts
  obtain ⟨names, hnames⟩ := exists_phrases (Render.forall_of_mapM hw htexts)
  exact ⟨names, phrase_joinNonempty .and hnames⟩

mutual

/-- The text of a whole query closes what it opens. -/
theorem Select.isPhrase_of_whole : ∀ {q : Select}, q.Whole → ∀ ⦃a a' sql⦄,
    q.render.outcome a = (.ok sql, a') → IsPhrase sql
  | q, @Select.Whole.intro _ hframe hfields hclauses, a, a', sql, h => by
    have hfields' := fun f hf => Field.isPhrase_of_whole (hfields f hf)
    have hclauses' := fun w hw c hc => Condition.isPhrase_of_whole (hclauses w hw c hc)
    obtain ⟨-, -, -, fields, m, hfs, clauses, hws, rfl⟩ := Select.render_ok h
    rw [Field.renderAll_eq_mapM] at hfs
    rw [WhereClause.renderAll_eq_mapM] at hws
    obtain ⟨fieldNames, hf⟩ := exists_phrases (Render.forall_of_mapM hfields' hfs)
    obtain ⟨clauseNames, hw⟩ := exists_phrases (Render.forall_of_mapM (fun w hw _ _ _ hsql =>
      WhereClause.isPhrase_of_render (hclauses' w hw) hsql) hws)
    -- the entries and the clauses stand in the same text as in the query without them
    exact ⟨_, phrase_text hframe hf hw⟩

/-- The text of a whole entry closes what it opens. -/
theorem Field.isPhrase_of_whole : ∀ {f : Field}, f.Whole → ∀ ⦃a a' sql⦄,
    f.render.outcome a = (.ok sql, a') → IsPhrase sql
  | _, .sound hf, a, a', sql, h => ⟨_, Field.phrase_of_sound hf h⟩
  | _, .subquery hquery, a, a', sql, h => by
    have hphrase := Select.isPhrase_of_whole hquery
    obtain ⟨⟨-, -, -, -, -, halias⟩, -, -⟩ := hquery
    obtain ⟨inner, hinner, rfl⟩ := Field.render_subquery_ok h
    obtain ⟨names, hnames⟩ := hphrase hinner
    exact ⟨names, phrase_aliased halias (phrase_parenthesized hnames)⟩

/-- The text of a whole condition closes what it opens. -/
theorem Condition.isPhrase_of_whole : ∀ {c : Condition}, c.Whole → ∀ ⦃a a' sql⦄,
    c.render.outcome a = (.ok sql, a') → IsPhrase sql
  | _, .sound hc, a, a', sql, h => ⟨_, Condition.phrase_of_sound hc h⟩
  | _, .raw hsql, a, a', sql, h => by
    rw [Condition.render] at h
    cases h
    exact hsql.isPhrase
  | _, @Condition.Whole.subquery query op value hquery hop, a, a', sql, h => by
    have hphrase := Select.isPhrase_of_whole hquery
    obtain ⟨inner, hinner, rfl⟩ := Condition.render_subquery_ok h
    obtain ⟨names, hnames⟩ := hphrase hinner
    rw [subquery_text]
    exact ⟨_, phrase_test op (phrase_parenthesized hnames) (phrase_placeholder a.next)⟩
  | _, .group combinator hconditions, a, a', sql, h => by
    have hphrases := fun c hc => Condition.isPhrase_of_whole (hconditions c hc)
    obtain ⟨texts, htexts, rfl⟩ := Condition.render_group_ok h
    rw [Condition.renderAll_eq_mapM] at htexts
    obtain ⟨names, hnames⟩ := exists_phrases (Render.forall_of_mapM hphrases htexts)
    exact ⟨names, phrase_combinator_join combinator hnames⟩

end

/-! ### What is classified -/

/-- A test becomes a whole condition, if the query that it compares is whole. -/
theorem Test.Fits.whole {t : Test} {c : Condition} (h : t.Fits c)
    (hquery : ∀ query, t.subject = .select query → query.Whole) : c.Whole := by
  cases h with
  | column hnames _ htests => exact .sound (htests.sound hnames.generates)
  | subquery _ hop => exact .subquery _ (hquery _ rfl) (Operator.cls_eq_iff.mpr hop)

/-- Filters with whole queries and complete texts become whole conditions. -/
theorem Filter.whole_of_classify {f : Filter} (hf : f.Whole) {c : Condition}
    (hc : Condition.classify f = .ok c) : c.Whole := by
  cases hf with
  | test op operand hsubject => exact (Condition.classify_test_eq_ok_iff.mp hc).whole hsubject
  | group combinator hfilters =>
    rw [Condition.classify] at hc
    obtain ⟨cs, hcs, hc⟩ := bind_eq_ok.mp hc
    cases hc
    -- every member of the group was classified of a filter of the group
    refine .group combinator fun c hc => ?_
    obtain ⟨f, hf, hclassify⟩ := Condition.exists_classify_of_mem hcs hc
    exact whole_of_classify (hfilters f hf) hclassify
  | raw hsql =>
    rw [Condition.classify] at hc
    cases hc
    exact .raw hsql

end SqlAssembly

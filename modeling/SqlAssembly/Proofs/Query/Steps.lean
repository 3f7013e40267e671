import SqlAssembly.Proofs.Allocator
import SqlAssembly.Query.Render

namespace SqlAssembly

/-!
# Renderings that succeed

What a rendering has done when it succeeds: which parts were rendered, on which allocators, and
the text that was made of them.  One lemma for each form of query, entry and condition.
-/

variable {a a' : Allocator} {sql : String}

/-! ### Queries and their entries -/

/-- The text of a query, from the texts of its entries and of its clauses. -/
def Select.text (q : Select) (fields clauses : List String) : String :=
  "SELECT " ++ ", ".intercalate fields ++ " FROM " ++ ", ".intercalate q.tables
    ++ String.join (q.joins.map fun j => " " ++ j.sql)
    ++ whereSuffix clauses ++ Select.tail q.order q.limit q.offset

/-- The text of a query begins with SELECT. -/
theorem Select.exists_text_eq (q : Select) (fields clauses : List String) :
    ∃ rest, q.text fields clauses = "SELECT " ++ rest := by
  unfold Select.text
  simp only [String.append_assoc]
  exact ⟨_, rfl⟩

/-- A query is rendered if no call failed and it has entries and tables: first the entries are, then
the clauses. -/
theorem Select.render_ok {q : Select} (h : q.render.outcome a = (.ok sql, a')) :
    q.fault = none ∧ q.fields ≠ [] ∧ q.tables ≠ [] ∧
      ∃ fields m, (Field.renderAll q.fields).outcome a = (.ok fields, m) ∧
        ∃ clauses, (WhereClause.renderAll q.clauses).outcome m = (.ok clauses, a') ∧
          sql = q.text fields clauses := by
  obtain ⟨fields, tables, joins, clauses, order, limit, offset, alias?, options, fault⟩ := q
  cases fault with
  -- a call that failed is answered before anything is rendered
  | some e =>
    rw [Select.render] at h
    cases h
  | none =>
  rw [Select.render] at h
  · cases fields with
    | nil => cases h
    | cons f fields =>
    cases tables with
    | nil => cases h
    | cons t tables =>
    refine ⟨rfl, nofun, nofun, ?_⟩
    -- the entries come first, and the clauses go on where they have stopped
    obtain ⟨fieldTexts, m, hfields, h⟩ := Render.bind_eq_ok.mp h
    obtain ⟨clauseTexts, m', hclauses, h⟩ := Render.bind_eq_ok.mp h
    cases h
    exact ⟨fieldTexts, m, hfields, clauseTexts, hclauses, rfl⟩
  · nofun

/-- An embedded query stands in parentheses, with its alias behind it. -/
theorem Field.render_subquery_ok {q : Select}
    (h : (Field.subquery q).render.outcome a = (.ok sql, a')) :
    ∃ inner, q.render.outcome a = (.ok inner, a') ∧
      sql = "(" ++ inner ++ ")" ++ (match q.alias? with
        | none => ""
        | some name => " AS " ++ name) := by
  rw [Field.render] at h
  obtain ⟨inner, m, hinner, h⟩ := Render.bind_eq_ok.mp h
  cases h
  exact ⟨inner, hinner, rfl⟩

theorem Field.renderAll_nil_ok {texts : List String}
    (h : (Field.renderAll []).outcome a = (.ok texts, a')) : texts = [] ∧ a' = a := by
  rw [Field.renderAll] at h
  cases h
  exact ⟨rfl, rfl⟩

/-- The first entry is rendered before the others. -/
theorem Field.renderAll_cons_ok {f : Field} {rest : List Field} {texts : List String}
    (h : (Field.renderAll (f :: rest)).outcome a = (.ok texts, a')) :
    ∃ sql m, f.render.outcome a = (.ok sql, m) ∧
      ∃ sqls, (Field.renderAll rest).outcome m = (.ok sqls, a') ∧ texts = sql :: sqls := by
  rw [Field.renderAll] at h
  obtain ⟨sql, m, hsql, h⟩ := Render.bind_eq_ok.mp h
  obtain ⟨sqls, m', hsqls, h⟩ := Render.bind_eq_ok.mp h
  cases h
  exact ⟨sql, m, hsql, sqls, hsqls, rfl⟩

/-! ### Conditions -/

/-- A pattern is either written into the text or bound, as the options say. -/
theorem Condition.render_pattern_ok {field pattern : String} {op : Operator}
    (h : (Condition.pattern field op pattern).render.outcome a = (.ok sql, a')) :
    (a.options.patterns = .inlined ∧ a' = a ∧
      sql = field ++ " " ++ op.sql ++ " " ++ patternLiteral pattern) ∨
    (a.options.patterns = .bound ∧ a' = a.bind (.text pattern) ∧
      sql = field ++ " " ++ op.sql ++ " " ++ Allocator.placeholder a.next) := by
  rw [Condition.render] at h
  obtain ⟨state, m, hstate, h⟩ := Render.bind_eq_ok.mp h
  cases hstate
  -- the options are those at the start: reading them changes nothing
  cases hmode : a.options.patterns with
  | inlined =>
    rw [hmode] at h
    cases h
    exact .inl ⟨rfl, rfl, rfl⟩
  | bound =>
    rw [hmode] at h
    cases h
    exact .inr ⟨rfl, rfl, rfl⟩

/-- The values of a list are bound in order, and their placeholders stand in parentheses. -/
theorem Condition.render_inList_ok {field : String} {op : Operator} {values : List Value}
    (h : (Condition.inList field op values).render.outcome a = (.ok sql, a')) :
    a' = a.bindAll values ∧
      sql = field ++ " " ++ op.sql ++ " (" ++ ", ".intercalate (a.names values.length) ++ ")" := by
  rw [Condition.render] at h
  obtain ⟨names, m, hnames, h⟩ := Render.bind_eq_ok.mp h
  rw [Render.outcome_bindAll] at hnames
  cases hnames
  cases h
  exact ⟨rfl, rfl⟩

/-- The value that a query is compared with is bound before the query is rendered. -/
theorem Condition.render_subquery_ok {q : Select} {op : Operator} {value : Value}
    (h : (Condition.subquery q op value).render.outcome a = (.ok sql, a')) :
    ∃ inner, q.render.outcome (a.bind value) = (.ok inner, a') ∧
      sql = "(" ++ inner ++ ") " ++ op.sql ++ " " ++ Allocator.placeholder a.next := by
  rw [Condition.render] at h
  rw [Render.bind_eq_ok] at h
  obtain ⟨name, m, hname, h⟩ := h
  cases hname
  obtain ⟨inner, m', hinner, h⟩ := Render.bind_eq_ok.mp h
  cases h
  exact ⟨inner, hinner, rfl⟩

/-- The text of a group, from the texts of its members. -/
def Combinator.join (combinator : Combinator) (texts : List String) : String :=
  let joined := joinNonempty (" " ++ combinator.sql ++ " ") texts
  if joined.isEmpty then "" else "(" ++ joined ++ ")"

/-- A group is the texts of its members, joined. -/
theorem Condition.render_group_ok {combinator : Combinator} {conditions : List Condition}
    (h : (Condition.group combinator conditions).render.outcome a = (.ok sql, a')) :
    ∃ texts, (Condition.renderAll conditions).outcome a = (.ok texts, a') ∧
      sql = combinator.join texts := by
  rw [Condition.render] at h
  obtain ⟨texts, m, htexts, h⟩ := Render.bind_eq_ok.mp h
  cases h
  exact ⟨texts, htexts, rfl⟩

theorem Condition.renderAll_nil_ok {texts : List String}
    (h : (Condition.renderAll []).outcome a = (.ok texts, a')) : texts = [] ∧ a' = a := by
  rw [Condition.renderAll] at h
  cases h
  exact ⟨rfl, rfl⟩

theorem Condition.renderAll_cons_ok {c : Condition} {rest : List Condition} {texts : List String}
    (h : (Condition.renderAll (c :: rest)).outcome a = (.ok texts, a')) :
    ∃ sql m, c.render.outcome a = (.ok sql, m) ∧
      ∃ sqls, (Condition.renderAll rest).outcome m = (.ok sqls, a') ∧ texts = sql :: sqls := by
  rw [Condition.renderAll] at h
  obtain ⟨sql, m, hsql, h⟩ := Render.bind_eq_ok.mp h
  obtain ⟨sqls, m', hsqls, h⟩ := Render.bind_eq_ok.mp h
  cases h
  exact ⟨sql, m, hsql, sqls, hsqls, rfl⟩

/-! ### Clauses -/

/-- A clause is rendered as its conditions are, one after the other. -/
theorem WhereClause.render_ok {w : WhereClause}
    (h : w.render.outcome a = (.ok sql, a')) :
    ∃ texts, (Condition.renderAll w.conditions).outcome a = (.ok texts, a') ∧
      sql = joinNonempty " AND " texts := by
  obtain ⟨first, rest⟩ := w
  rw [WhereClause.render] at h
  obtain ⟨text, m, htext, h⟩ := Render.bind_eq_ok.mp h
  obtain ⟨texts, m', htexts, h⟩ := Render.bind_eq_ok.mp h
  cases h
  -- the first condition and the others are one list of conditions
  refine ⟨text :: texts, ?_, rfl⟩
  rw [WhereClause.conditions, Condition.renderAll]
  exact Render.bind_eq_ok.mpr ⟨text, m, htext, Render.bind_eq_ok.mpr ⟨texts, a', htexts, rfl⟩⟩

theorem WhereClause.renderAll_nil_ok {texts : List String}
    (h : (WhereClause.renderAll []).outcome a = (.ok texts, a')) : texts = [] ∧ a' = a := by
  rw [WhereClause.renderAll] at h
  cases h
  exact ⟨rfl, rfl⟩

theorem WhereClause.renderAll_cons_ok {w : WhereClause} {rest : List WhereClause}
    {texts : List String}
    (h : (WhereClause.renderAll (w :: rest)).outcome a = (.ok texts, a')) :
    ∃ sql m, w.render.outcome a = (.ok sql, m) ∧
      ∃ sqls, (WhereClause.renderAll rest).outcome m = (.ok sqls, a') ∧ texts = sql :: sqls := by
  rw [WhereClause.renderAll] at h
  obtain ⟨sql, m, hsql, h⟩ := Render.bind_eq_ok.mp h
  obtain ⟨sqls, m', hsqls, h⟩ := Render.bind_eq_ok.mp h
  cases h
  exact ⟨sql, m, hsql, sqls, hsqls, rfl⟩

end SqlAssembly

import SqlAssembly.Proofs.Query.Steps

namespace SqlAssembly

/-!
# The values of queries and conditions

Which values a query binds, and in which order, told without rendering it.

* `Select.values`, `Condition.values` — the values in order, for a way to treat patterns;
* `Select.bindAll_of_render`, `Condition.bindAll_of_render` — rendering binds exactly these.

The text has another order: the value that a subquery is compared with stands behind it.
-/

mutual

/-- The values of a query: those of its entries, then those of its clauses. -/
def Select.values (mode : PatternMode) : Select → List Value
  | ⟨fields, _, _, clauses, _, _, _, _, _, _⟩ =>
    Field.allValues mode fields ++ WhereClause.allValues mode clauses

/-- The values of an entry of a select list. -/
def Field.values (mode : PatternMode) : Field → List Value
  | .column _ | .call _ => []
  | .subquery query => query.values mode

/-- The values of the entries, in order. -/
def Field.allValues (mode : PatternMode) : List Field → List Value
  | [] => []
  | f :: rest => f.values mode ++ Field.allValues mode rest

/-- The values of a condition.  A pattern is one only if patterns are bound. -/
def Condition.values (mode : PatternMode) : Condition → List Value
  | .compare _ _ value => [value]
  | .inList _ _ values => values
  | .between _ _ low high => [low, high]
  | .pattern _ _ pattern => match mode with
    | .inlined => []
    | .bound => [.text pattern]
  | .subquery query _ value => value :: query.values mode
  | .group _ conditions => Condition.allValues mode conditions
  | .nullCheck _ _ | .columns _ _ _ | .raw _ => []

/-- The values of conditions, from left to right. -/
def Condition.allValues (mode : PatternMode) : List Condition → List Value
  | [] => []
  | c :: rest => c.values mode ++ Condition.allValues mode rest

/-- The values of a clause. -/
def WhereClause.values (mode : PatternMode) : WhereClause → List Value
  | ⟨first, rest⟩ => first.values mode ++ Condition.allValues mode rest

/-- The values of clauses, from left to right. -/
def WhereClause.allValues (mode : PatternMode) : List WhereClause → List Value
  | [] => []
  | w :: rest => w.values mode ++ WhereClause.allValues mode rest

end

/-- A clause has the values of its conditions. -/
theorem WhereClause.values_eq (mode : PatternMode) (w : WhereClause) :
    w.values mode = Condition.allValues mode w.conditions := by
  obtain ⟨first, rest⟩ := w
  rw [WhereClause.values, conditions, Condition.allValues]

mutual

/-- A query binds its values, in order, and nothing else. -/
theorem Select.bindAll_of_render (q : Select) {a a' : Allocator} {sql : String}
    (h : q.render.outcome a = (.ok sql, a')) : a' = a.bindAll (q.values a.options.patterns) := by
  cases q with
  | mk fields tables joins clauses order limit offset alias? options fault =>
    obtain ⟨-, -, -, texts, m, hfields, _, hclauses, -⟩ := Select.render_ok h
    have hm := Field.bindAll_of_renderAll fields hfields
    have ha := WhereClause.bindAll_of_renderAll clauses hclauses
    -- the options, and with them the treatment of patterns, are those at the start
    rw [Select.values, ha, hm, Allocator.bindAll_options, Allocator.bindAll_append]

/-- An entry binds the values of the query that it embeds. -/
theorem Field.bindAll_of_render (f : Field) {a a' : Allocator} {sql : String}
    (h : f.render.outcome a = (.ok sql, a')) : a' = a.bindAll (f.values a.options.patterns) := by
  cases f with
  | column text =>
    rw [Field.render] at h
    cases h
    rfl
  | call call =>
    rw [Field.render, Render.outcome_liftExcept] at h
    -- a call binds nothing, rendered or not
    exact (Prod.mk.inj h).2.symm
  | subquery query =>
    obtain ⟨inner, hinner, -⟩ := Field.render_subquery_ok h
    rw [Field.values]
    exact Select.bindAll_of_render query hinner

/-- The entries bind their values one after the other. -/
theorem Field.bindAll_of_renderAll (fs : List Field) {a a' : Allocator} {texts : List String}
    (h : (Field.renderAll fs).outcome a = (.ok texts, a')) :
    a' = a.bindAll (Field.allValues a.options.patterns fs) := by
  cases fs with
  | nil =>
    obtain ⟨-, rfl⟩ := Field.renderAll_nil_ok h
    rfl
  | cons f rest =>
    obtain ⟨sql, m, hf, sqls, hrest, -⟩ := Field.renderAll_cons_ok h
    have hm := Field.bindAll_of_render f hf
    have ha := Field.bindAll_of_renderAll rest hrest
    rw [Field.allValues, ha, hm, Allocator.bindAll_options, Allocator.bindAll_append]

/-- A condition binds its values, in order, and nothing else. -/
theorem Condition.bindAll_of_render (c : Condition) {a a' : Allocator} {sql : String}
    (h : c.render.outcome a = (.ok sql, a')) : a' = a.bindAll (c.values a.options.patterns) := by
  cases c with
  | compare field op value =>
    rw [Condition.render] at h
    cases h
    rfl
  | nullCheck field op =>
    rw [Condition.render] at h
    cases h
    rfl
  | inList field op values => exact (Condition.render_inList_ok h).1
  | between field op low high =>
    rw [Condition.render] at h
    cases h
    rfl
  | pattern field op pattern =>
    rcases Condition.render_pattern_ok h with ⟨hmode, rfl, -⟩ | ⟨hmode, rfl, -⟩
    · rw [hmode]
      rfl
    · rw [hmode]
      rfl
  | columns field op column =>
    rw [Condition.render] at h
    cases h
    rfl
  | subquery query op value =>
    -- the value comes first, although its placeholder stands behind the query
    obtain ⟨inner, hinner, -⟩ := Condition.render_subquery_ok h
    rw [Condition.values, Allocator.bindAll_cons]
    exact Select.bindAll_of_render query hinner
  | group combinator conditions =>
    obtain ⟨texts, htexts, -⟩ := Condition.render_group_ok h
    rw [Condition.values]
    exact Condition.bindAll_of_renderAll conditions htexts
  | raw text =>
    rw [Condition.render] at h
    cases h
    rfl

/-- Conditions bind their values one after the other. -/
theorem Condition.bindAll_of_renderAll (cs : List Condition) {a a' : Allocator}
    {texts : List String} (h : (Condition.renderAll cs).outcome a = (.ok texts, a')) :
    a' = a.bindAll (Condition.allValues a.options.patterns cs) := by
  cases cs with
  | nil =>
    obtain ⟨-, rfl⟩ := Condition.renderAll_nil_ok h
    rfl
  | cons c rest =>
    obtain ⟨sql, m, hc, sqls, hrest, -⟩ := Condition.renderAll_cons_ok h
    have hm := Condition.bindAll_of_render c hc
    have ha := Condition.bindAll_of_renderAll rest hrest
    rw [Condition.allValues, ha, hm, Allocator.bindAll_options, Allocator.bindAll_append]

/-- A clause binds the values of its conditions. -/
theorem WhereClause.bindAll_of_render (w : WhereClause) {a a' : Allocator} {sql : String}
    (h : w.render.outcome a = (.ok sql, a')) : a' = a.bindAll (w.values a.options.patterns) := by
  cases w with
  | mk first rest =>
    obtain ⟨texts, htexts, -⟩ := WhereClause.render_ok h
    obtain ⟨text, m, hfirst, sqls, hrest, -⟩ := Condition.renderAll_cons_ok htexts
    have hm := Condition.bindAll_of_render first hfirst
    have ha := Condition.bindAll_of_renderAll rest hrest
    rw [WhereClause.values, ha, hm, Allocator.bindAll_options, Allocator.bindAll_append]

/-- The clauses bind their values one after the other. -/
theorem WhereClause.bindAll_of_renderAll (ws : List WhereClause) {a a' : Allocator}
    {texts : List String} (h : (WhereClause.renderAll ws).outcome a = (.ok texts, a')) :
    a' = a.bindAll (WhereClause.allValues a.options.patterns ws) := by
  cases ws with
  | nil =>
    obtain ⟨-, rfl⟩ := WhereClause.renderAll_nil_ok h
    rfl
  | cons w rest =>
    obtain ⟨sql, m, hw, sqls, hrest, -⟩ := WhereClause.renderAll_cons_ok h
    have hm := WhereClause.bindAll_of_render w hw
    have ha := WhereClause.bindAll_of_renderAll rest hrest
    rw [WhereClause.allValues, ha, hm, Allocator.bindAll_options, Allocator.bindAll_append]

end

end SqlAssembly

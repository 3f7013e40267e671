import SqlAssembly.Proofs.Query.Values

namespace SqlAssembly

/-!
# Embedded queries

A query that is embedded in another one is rendered there as it is on its own, on the allocator
that its surroundings have left: its text is a part of the outer text, and its values are a block
of the outer values.

* `IsPart` — a text stands somewhere in another one;
* `Select.Occurs`, `Select.OccursIn` — its text and its values stand in a text and among its
  values, and do so whenever a rendering succeeds;
* `Select.OccursIn.field`, `Select.OccursIn.clause` and others — one step further out;
* `Select.Within`, `Condition.Within` — a query is embedded, at any depth;
* `Select.Within.occursIn`, `Condition.Within.occursIn` — it occurs, by induction on the depth.
-/

/-! ### Parts of texts -/

/-- The first text stands somewhere in the second one. -/
def IsPart (part whole : String) : Prop := ∃ before after, whole = before ++ part ++ after

namespace IsPart

variable {part whole text : String} {texts : List String}

theorem refl (text : String) : IsPart text text := ⟨"", "", by simp⟩

/-- Text in front keeps the part. -/
theorem prepend (text : String) (h : IsPart part whole) : IsPart part (text ++ whole) := by
  obtain ⟨before, after, rfl⟩ := h
  exact ⟨text ++ before, after, by simp only [String.append_assoc]⟩

theorem postpend (h : IsPart part whole) (text : String) : IsPart part (whole ++ text) := by
  obtain ⟨before, after, rfl⟩ := h
  exact ⟨before, after ++ text, by simp only [String.append_assoc]⟩

theorem trans (h : IsPart part whole) (hwhole : IsPart whole text) : IsPart part text := by
  obtain ⟨before, after, rfl⟩ := hwhole
  exact (h.prepend before).postpend after

/-- Each of the texts that are joined is a part of the whole. -/
theorem intercalate (separator : String) (h : text ∈ texts) :
    IsPart text (separator.intercalate texts) := by
  induction texts with
  | nil => cases h
  | cons first texts ih =>
    cases texts with
    | nil =>
      obtain rfl := List.mem_singleton.mp h
      simpa using refl text
    | cons second texts =>
      rw [String.intercalate_cons_cons]
      rcases List.mem_cons.mp h with rfl | h
      -- it is the first text, or one of the others
      · exact ((refl text).postpend separator).postpend _
      · exact (ih h).prepend _

/-- Each text that is not left out is a part of the joined ones. -/
theorem joinNonempty (separator : String) (h : text ∈ texts) (hne : text ≠ "") :
    IsPart text (SqlAssembly.joinNonempty separator texts) :=
  intercalate separator (List.mem_filter.mpr ⟨h, by simpa using hne⟩)

/-- What has a part that is not empty is not empty itself. -/
theorem ne_empty (h : IsPart part whole) (hne : part ≠ "") : whole ≠ "" := by
  obtain ⟨before, after, rfl⟩ := h
  simp [String.append_eq_empty_iff, hne]

/-- The text of a clause is a part of the WHERE part. -/
theorem whereSuffix (h : text ∈ texts) (hne : text ≠ "") :
    IsPart text (SqlAssembly.whereSuffix texts) := by
  have hjoined := joinNonempty " AND " h hne
  rw [SqlAssembly.whereSuffix, if_neg (by simpa using hjoined.ne_empty hne)]
  exact hjoined.prepend " WHERE "

/-- The text of a member is a part of the group. -/
theorem combine (combinator : Combinator) (h : text ∈ texts) (hne : text ≠ "") :
    IsPart text (combinator.join texts) := by
  have hjoined := joinNonempty (" " ++ combinator.sql ++ " ") h hne
  rw [Combinator.join, if_neg (by simpa using hjoined.ne_empty hne)]
  exact (hjoined.prepend "(").postpend ")"

end IsPart

/-! ### Renderings of lists -/

/-- Entries are rendered one by one. -/
theorem Field.renderAll_eq_mapM (fs : List Field) : Field.renderAll fs = fs.mapM Field.render := by
  induction fs with
  | nil => rw [Field.renderAll, List.mapM_nil]
  | cons f rest ih => rw [Field.renderAll, List.mapM_cons, ih]

/-- Conditions are rendered one by one. -/
theorem Condition.renderAll_eq_mapM (cs : List Condition) :
    Condition.renderAll cs = cs.mapM Condition.render := by
  induction cs with
  | nil => rw [Condition.renderAll, List.mapM_nil]
  | cons c rest ih => rw [Condition.renderAll, List.mapM_cons, ih]

/-- Clauses are rendered one by one. -/
theorem WhereClause.renderAll_eq_mapM (ws : List WhereClause) :
    WhereClause.renderAll ws = ws.mapM WhereClause.render := by
  induction ws with
  | nil => rw [WhereClause.renderAll, List.mapM_nil]
  | cons w rest ih => rw [WhereClause.renderAll, List.mapM_cons, ih]

/-- The values of entries are those of each, in order. -/
theorem Field.allValues_eq_flatMap (mode : PatternMode) (fs : List Field) :
    Field.allValues mode fs = fs.flatMap (Field.values mode) := by
  induction fs with
  | nil => rfl
  | cons f rest ih => rw [Field.allValues, List.flatMap_cons, ih]

/-- The values of conditions are those of each, in order. -/
theorem Condition.allValues_eq_flatMap (mode : PatternMode) (cs : List Condition) :
    Condition.allValues mode cs = cs.flatMap (Condition.values mode) := by
  induction cs with
  | nil => rfl
  | cons c rest ih => rw [Condition.allValues, List.flatMap_cons, ih]

/-- The values of clauses are those of each, in order. -/
theorem WhereClause.allValues_eq_flatMap (mode : PatternMode) (ws : List WhereClause) :
    WhereClause.allValues mode ws = ws.flatMap (WhereClause.values mode) := by
  induction ws with
  | nil => rfl
  | cons w rest ih => rw [WhereClause.allValues, List.flatMap_cons, ih]

/-- The values of a query are those of its entries and then those of its clauses. -/
theorem Select.values_eq (mode : PatternMode) (q : Select) :
    q.values mode = Field.allValues mode q.fields ++ WhereClause.allValues mode q.clauses := by
  cases q
  rfl

/-! ### A query in a text -/

/-- The text of a query is a part of a text, and its values are a block of the values that are bound
with that text.  It is rendered on the allocator that the values in front of the block leave. -/
def Select.Occurs (q : Select) (a : Allocator) (vs : List Value) (sql : String) : Prop :=
  ∃ inner us ws, IsPart inner sql ∧ vs = us ++ q.values a.options.patterns ++ ws ∧
    q.render.outcome (a.bindAll us) = (.ok inner, a.bindAll (us ++ q.values a.options.patterns))

namespace Select.Occurs

variable {q : Select} {a : Allocator} {vs : List Value} {sql text : String}

/-- What occurs in a text occurs in every text that has it as a part. -/
theorem part (h : q.Occurs a vs sql) (hpart : IsPart sql text) : q.Occurs a vs text := by
  obtain ⟨inner, us, ws, hinner, hvs, hrender⟩ := h
  exact ⟨inner, us, ws, hinner.trans hpart, hvs, hrender⟩

/-- Values may follow. -/
theorem append (h : q.Occurs a vs sql) (more : List Value) : q.Occurs a (vs ++ more) sql := by
  obtain ⟨inner, us, ws, hinner, rfl, hrender⟩ := h
  exact ⟨inner, us, ws ++ more, hinner, by simp only [List.append_assoc], hrender⟩

/-- Values may have been bound before. -/
theorem behind {more : List Value} (h : q.Occurs (a.bindAll more) vs sql) :
    q.Occurs a (more ++ vs) sql := by
  obtain ⟨inner, us, ws, hinner, rfl, hrender⟩ := h
  rw [Allocator.bindAll_options, ← Allocator.bindAll_append, ← Allocator.bindAll_append] at hrender
  refine ⟨inner, more ++ us, ws, hinner, ?_, ?_⟩
  · simp only [Allocator.bindAll_options, List.append_assoc]
  · rw [hrender, List.append_assoc]

/-- The text of a query is not empty, and so is no text that it occurs in. -/
theorem ne_empty (h : q.Occurs a vs sql) : sql ≠ "" := by
  obtain ⟨inner, us, ws, hinner, -, hrender⟩ := h
  obtain ⟨-, -, -, fields, m, -, clauses, -, rfl⟩ := Select.render_ok hrender
  refine hinner.ne_empty ?_
  obtain ⟨rest, hrest⟩ := q.exists_text_eq fields clauses
  rw [hrest]
  simp [String.append_eq_empty_iff]

end Select.Occurs

/-- Whenever a rendering succeeds, the query occurs in its text. -/
def Select.OccursIn (q : Select) (r : Render String) (values : PatternMode → List Value) : Prop :=
  ∀ (a a' : Allocator) (sql : String), r.outcome a = (.ok sql, a') →
    q.Occurs a (values a.options.patterns) sql

/-- What occurs in the text of a member of a list occurs in one of the texts of the list. -/
theorem Select.occurs_of_mem {q : Select} {α : Type} {r : α → Render String}
    {values : PatternMode → α → List Value}
    (hbind : ∀ (x : α) {a a' : Allocator} {sql : String}, (r x).outcome a = (.ok sql, a') →
      a' = a.bindAll (values a.options.patterns x))
    {x : α} {xs : List α} (hx : x ∈ xs) (hocc : q.OccursIn (r x) fun mode => values mode x)
    {a a' : Allocator} {texts : List String} (h : (xs.mapM r).outcome a = (.ok texts, a')) :
    ∃ text ∈ texts, q.Occurs a (xs.flatMap (values a.options.patterns)) text := by
  induction xs generalizing a texts with
  | nil => cases hx
  | cons y ys ih =>
    rw [List.mapM_cons] at h
    obtain ⟨first, m, hfirst, h⟩ := Render.bind_eq_ok.mp h
    obtain ⟨others, m', hothers, h⟩ := Render.bind_eq_ok.mp h
    cases h
    rw [List.flatMap_cons]
    rcases List.mem_cons.mp hx with rfl | hx
    · exact ⟨first, List.mem_cons_self, (hocc _ _ _ hfirst).append _⟩
    · -- the values of the members in front were bound before
      obtain rfl := hbind y hfirst
      obtain ⟨text, htext, hoccurs⟩ := ih hx hothers
      rw [Allocator.bindAll_options] at hoccurs
      exact ⟨text, List.mem_cons_of_mem _ htext, hoccurs.behind⟩

/-- A query that occurs in a condition of a clause occurs in the WHERE part. -/
theorem WhereClause.occurs_of_mem {q : Select} {c : Condition} {w : WhereClause}
    {ws : List WhereClause} (hw : w ∈ ws) (hc : c ∈ w.conditions)
    (hocc : q.OccursIn c.render fun mode => c.values mode) {a a' : Allocator} {texts : List String}
    (h : (WhereClause.renderAll ws).outcome a = (.ok texts, a')) :
    q.Occurs a (WhereClause.allValues a.options.patterns ws) (whereSuffix texts) := by
  have hclause : q.OccursIn w.render fun mode => w.values mode := by
    intro a a' sql hrender
    obtain ⟨conditions, hconditions, rfl⟩ := WhereClause.render_ok hrender
    rw [Condition.renderAll_eq_mapM] at hconditions
    obtain ⟨text, htext, hoccurs⟩ :=
      Select.occurs_of_mem Condition.bindAll_of_render hc hocc hconditions
    dsimp only
    rw [WhereClause.values_eq, Condition.allValues_eq_flatMap]
    exact hoccurs.part (.joinNonempty " AND " htext hoccurs.ne_empty)
  rw [WhereClause.renderAll_eq_mapM] at h
  obtain ⟨text, htext, hoccurs⟩ := Select.occurs_of_mem WhereClause.bindAll_of_render hw hclause h
  rw [WhereClause.allValues_eq_flatMap]
  exact hoccurs.part (.whereSuffix htext hoccurs.ne_empty)

namespace Select.OccursIn

variable {q p r : Select} {c : Condition}

/-- A query occurs in its own text. -/
theorem refl (q : Select) : q.OccursIn q.render fun mode => q.values mode := by
  intro a a' sql h
  have ha := Select.bindAll_of_render q h
  refine ⟨sql, [], [], .refl sql, by simp, ?_⟩
  rw [Allocator.bindAll_nil, h, ha, List.nil_append]

/-- What occurs in a query of a select list occurs in the query around it. -/
theorem field (hr : .subquery r ∈ p.fields) (h : q.OccursIn r.render fun mode => r.values mode) :
    q.OccursIn p.render fun mode => p.values mode := by
  intro a a' sql hp
  have hfield : q.OccursIn (Field.subquery r).render
      fun mode => (Field.subquery r).values mode := by
    intro a a' sql hf
    obtain ⟨inner, hinner, rfl⟩ := Field.render_subquery_ok hf
    exact (h a a' inner hinner).part ((((IsPart.refl inner).prepend "(").postpend ")").postpend _)
  -- the entries come first, so no values are in front of theirs
  obtain ⟨-, -, -, fields, m, hfields, clauses, -, rfl⟩ := Select.render_ok hp
  rw [Field.renderAll_eq_mapM] at hfields
  obtain ⟨text, htext, hoccurs⟩ :=
    Select.occurs_of_mem Field.bindAll_of_render hr hfield hfields
  have hpart := ((IsPart.intercalate ", " htext).prepend "SELECT ").postpend " FROM "
  dsimp only
  rw [Select.values_eq, Field.allValues_eq_flatMap]
  exact (hoccurs.append _).part ((((hpart.postpend _).postpend _).postpend _).postpend _)

/-- What occurs in a condition of a clause occurs in the query of the clause. -/
theorem clause {w : WhereClause} (hw : w ∈ p.clauses) (hc : c ∈ w.conditions)
    (h : q.OccursIn c.render fun mode => c.values mode) :
    q.OccursIn p.render fun mode => p.values mode := by
  intro a a' sql hp
  obtain ⟨-, -, -, fields, m, hfields, clauses, hclauses, rfl⟩ := Select.render_ok hp
  -- the values of the entries were bound before those of the clauses
  obtain rfl := Field.bindAll_of_renderAll p.fields hfields
  have hoccurs := WhereClause.occurs_of_mem hw hc h hclauses
  rw [Allocator.bindAll_options] at hoccurs
  dsimp only
  rw [Select.values_eq]
  exact hoccurs.behind.part (((IsPart.refl _).prepend _).postpend _)

/-- The value that a query is compared with is bound before it. -/
theorem subquery (op : Operator) (value : Value)
    (h : q.OccursIn r.render fun mode => r.values mode) :
    q.OccursIn (Condition.subquery r op value).render
      fun mode => (Condition.subquery r op value).values mode := by
  intro a a' sql hc
  obtain ⟨inner, hinner, rfl⟩ := Condition.render_subquery_ok hc
  have hoccurs : q.Occurs (a.bindAll [value]) _ inner := h _ _ _ hinner
  have hpart := (((IsPart.refl inner).prepend "(").postpend ") ").postpend op.sql
  exact hoccurs.behind.part ((hpart.postpend " ").postpend _)

/-- What occurs in a condition occurs in a group with that condition. -/
theorem group (combinator : Combinator) {conditions : List Condition} (hc : c ∈ conditions)
    (h : q.OccursIn c.render fun mode => c.values mode) :
    q.OccursIn (Condition.group combinator conditions).render
      fun mode => (Condition.group combinator conditions).values mode := by
  intro a a' sql hgroup
  obtain ⟨texts, htexts, rfl⟩ := Condition.render_group_ok hgroup
  rw [Condition.renderAll_eq_mapM] at htexts
  obtain ⟨text, htext, hoccurs⟩ := Select.occurs_of_mem Condition.bindAll_of_render hc h htexts
  dsimp only
  rw [Condition.values, Condition.allValues_eq_flatMap]
  exact hoccurs.part (.combine combinator htext hoccurs.ne_empty)

end Select.OccursIn

/-! ### At any depth -/

mutual

/-- The query is the other one, or embedded in it at any depth. -/
inductive Select.Within (q : Select) : Select → Prop
  | refl : Select.Within q q
  | field {p r : Select} : .subquery r ∈ p.fields → Select.Within q r → Select.Within q p
  | clause {p : Select} {w : WhereClause} {c : Condition} : w ∈ p.clauses → c ∈ w.conditions →
    Condition.Within q c → Select.Within q p

/-- The query is embedded in the condition at any depth. -/
inductive Condition.Within (q : Select) : Condition → Prop
  | subquery {r : Select} (op : Operator) (value : Value) : Select.Within q r →
    Condition.Within q (.subquery r op value)
  | group (combinator : Combinator) {conditions : List Condition} {c : Condition} :
    c ∈ conditions → Condition.Within q c → Condition.Within q (.group combinator conditions)

end

/-- A query occurs in the text of every query that it is embedded in. -/
theorem Select.Within.occursIn {q p : Select} (h : q.Within p) :
    q.OccursIn p.render fun mode => p.values mode :=
  @Select.Within.rec q (fun p _ => q.OccursIn p.render fun mode => p.values mode)
    (fun c _ => q.OccursIn c.render fun mode => c.values mode) (.refl q) (fun hr _ => .field hr)
    (fun hw hc _ => .clause hw hc) (fun op value _ => .subquery op value)
    (fun combinator _ _ hc _ => .group combinator hc) p h

/-- A query occurs in the text of every condition that it is embedded in. -/
theorem Condition.Within.occursIn {q : Select} {c : Condition} (h : Condition.Within q c) :
    q.OccursIn c.render fun mode => c.values mode :=
  @Condition.Within.rec q (fun p _ => q.OccursIn p.render fun mode => p.values mode)
    (fun c _ => q.OccursIn c.render fun mode => c.values mode) (.refl q) (fun hr _ => .field hr)
    (fun hw hc _ => .clause hw hc) (fun op value _ => .subquery op value)
    (fun combinator _ _ hc _ => .group combinator hc) c h

end SqlAssembly

import SqlAssembly.Proofs.Query.Values
import SqlAssembly.Proofs.Twins

namespace SqlAssembly

/-!
# Queries that are alike

Two queries are alike if they differ only in what does not reach the text: in the values that are
bound, in the options of the queries embedded in them, and in the names of queries that are
embedded in conditions.

* `Select.Alike`, `Condition.Alike` — the relation, with the pairs of values at the same places;
* `Select.Alike.values_eq`, `Condition.Alike.values_eq` — the pairs are in the order of binding;
* `Select.alike_refl`, `Condition.alike_refl` — a query is like itself;
* `Select.Alike.twins`, `Condition.Alike.twins` — what is alike is rendered in the same way.
-/

mutual

/-- The queries differ in bound values, and in what only matters to a query that is built on its
own. -/
inductive Select.Alike (mode : PatternMode) : Select → Select → List (Value × Value) → Prop
  | mk {fields fields' : List Field} {tables : List String} {joins : List Join}
    {clauses clauses' : List WhereClause} {order : List (String × Direction)}
    {limit offset : Option UInt64} {alias? alias?' : Option String}
    {options options' : BuildOptions} {fault : Option Error} {ps qs : List (Value × Value)} :
    Field.AllAlike mode fields fields' ps → WhereClause.AllAlike mode clauses clauses' qs →
    Select.Alike mode ⟨fields, tables, joins, clauses, order, limit, offset, alias?, options, fault⟩
      ⟨fields', tables, joins, clauses', order, limit, offset, alias?', options', fault⟩ (ps ++ qs)

/-- The entries of a select list are alike.  The name of a query is part of its entry. -/
inductive Field.Alike (mode : PatternMode) : Field → Field → List (Value × Value) → Prop
  | column (sql : String) : Field.Alike mode (.column sql) (.column sql) []
  | call (call : FunctionCall) : Field.Alike mode (.call call) (.call call) []
  | subquery {query query' : Select} {ps : List (Value × Value)} :
    Select.Alike mode query query' ps → query.alias? = query'.alias? →
    Field.Alike mode (.subquery query) (.subquery query') ps

/-- The entries are alike one by one. -/
inductive Field.AllAlike (mode : PatternMode) :
    List Field → List Field → List (Value × Value) → Prop
  | nil : Field.AllAlike mode [] [] []
  | cons {f f' : Field} {rest rest' : List Field} {ps qs : List (Value × Value)} :
    Field.Alike mode f f' ps → Field.AllAlike mode rest rest' qs →
    Field.AllAlike mode (f :: rest) (f' :: rest') (ps ++ qs)

/-- The conditions differ in bound values.  A pattern is one only if patterns are bound. -/
inductive Condition.Alike (mode : PatternMode) : Condition → Condition → List (Value × Value) → Prop
  | compare (field : String) (op : Operator) (v v' : Value) :
    Condition.Alike mode (.compare field op v) (.compare field op v') [(v, v')]
  | nullCheck (field : String) (op : Operator) :
    Condition.Alike mode (.nullCheck field op) (.nullCheck field op) []
  | inList (field : String) (op : Operator) (ps : List (Value × Value)) :
    Condition.Alike mode (.inList field op (ps.map (·.1))) (.inList field op (ps.map (·.2))) ps
  | between (field : String) (op : Operator) (low low' high high' : Value) :
    Condition.Alike mode (.between field op low high) (.between field op low' high')
      [(low, low'), (high, high')]
  | inlined (field : String) (op : Operator) (pattern : String) : mode = .inlined →
    Condition.Alike mode (.pattern field op pattern) (.pattern field op pattern) []
  | bound (field : String) (op : Operator) (pattern pattern' : String) : mode = .bound →
    Condition.Alike mode (.pattern field op pattern) (.pattern field op pattern')
      [(.text pattern, .text pattern')]
  | columns (field : String) (op : Operator) (column : String) :
    Condition.Alike mode (.columns field op column) (.columns field op column) []
  | subquery {query query' : Select} {ps : List (Value × Value)} (op : Operator) (v v' : Value) :
    Select.Alike mode query query' ps →
    Condition.Alike mode (.subquery query op v) (.subquery query' op v') ((v, v') :: ps)
  | group (combinator : Combinator) {conditions conditions' : List Condition}
    {ps : List (Value × Value)} : Condition.AllAlike mode conditions conditions' ps →
    Condition.Alike mode (.group combinator conditions) (.group combinator conditions') ps
  | raw (sql : String) : Condition.Alike mode (.raw sql) (.raw sql) []

/-- The conditions are alike one by one. -/
inductive Condition.AllAlike (mode : PatternMode) :
    List Condition → List Condition → List (Value × Value) → Prop
  | nil : Condition.AllAlike mode [] [] []
  | cons {c c' : Condition} {rest rest' : List Condition} {ps qs : List (Value × Value)} :
    Condition.Alike mode c c' ps → Condition.AllAlike mode rest rest' qs →
    Condition.AllAlike mode (c :: rest) (c' :: rest') (ps ++ qs)

/-- The conditions of the clauses are alike. -/
inductive WhereClause.Alike (mode : PatternMode) :
    WhereClause → WhereClause → List (Value × Value) → Prop
  | mk {first first' : Condition} {rest rest' : List Condition} {ps qs : List (Value × Value)} :
    Condition.Alike mode first first' ps → Condition.AllAlike mode rest rest' qs →
    WhereClause.Alike mode ⟨first, rest⟩ ⟨first', rest'⟩ (ps ++ qs)

/-- The clauses are alike one by one. -/
inductive WhereClause.AllAlike (mode : PatternMode) :
    List WhereClause → List WhereClause → List (Value × Value) → Prop
  | nil : WhereClause.AllAlike mode [] [] []
  | cons {w w' : WhereClause} {rest rest' : List WhereClause} {ps qs : List (Value × Value)} :
    WhereClause.Alike mode w w' ps → WhereClause.AllAlike mode rest rest' qs →
    WhereClause.AllAlike mode (w :: rest) (w' :: rest') (ps ++ qs)

end

variable {mode : PatternMode}

/-! ### The values -/

mutual

/-- The pairs are the values of the two queries, in order. -/
theorem Select.Alike.values_eq {q q' : Select} {ps : List (Value × Value)}
    (h : q.Alike mode q' ps) :
    q.values mode = ps.map (·.1) ∧ q'.values mode = ps.map (·.2) := by
  cases h with
  | mk hfields hclauses =>
    obtain ⟨hf, hf'⟩ := Field.AllAlike.values_eq hfields
    obtain ⟨hw, hw'⟩ := WhereClause.AllAlike.values_eq hclauses
    simp only [Select.values, List.map_append, hf, hf', hw, hw', and_self]

/-- The same for an entry of a select list. -/
theorem Field.Alike.values_eq {f f' : Field} {ps : List (Value × Value)}
    (h : f.Alike mode f' ps) :
    f.values mode = ps.map (·.1) ∧ f'.values mode = ps.map (·.2) := by
  cases h with
  | column | call => exact ⟨rfl, rfl⟩
  | subquery h => exact Select.Alike.values_eq h

/-- The same for entries, from left to right. -/
theorem Field.AllAlike.values_eq {fs fs' : List Field} {ps : List (Value × Value)}
    (h : Field.AllAlike mode fs fs' ps) :
    Field.allValues mode fs = ps.map (·.1) ∧ Field.allValues mode fs' = ps.map (·.2) := by
  cases h with
  | nil => exact ⟨rfl, rfl⟩
  | cons hf hrest =>
    obtain ⟨h, h'⟩ := Field.Alike.values_eq hf
    obtain ⟨hr, hr'⟩ := Field.AllAlike.values_eq hrest
    simp only [Field.allValues, List.map_append, h, h', hr, hr', and_self]

/-- The pairs are the values of the two conditions, in order. -/
theorem Condition.Alike.values_eq {c c' : Condition} {ps : List (Value × Value)}
    (h : c.Alike mode c' ps) :
    c.values mode = ps.map (·.1) ∧ c'.values mode = ps.map (·.2) := by
  cases h with
  | compare | nullCheck | inList | between | columns | raw => exact ⟨rfl, rfl⟩
  | inlined field op pattern hmode =>
    subst hmode
    exact ⟨rfl, rfl⟩
  | bound field op pattern pattern' hmode =>
    subst hmode
    exact ⟨rfl, rfl⟩
  | subquery op v v' h =>
    obtain ⟨hq, hq'⟩ := Select.Alike.values_eq h
    simp only [Condition.values, List.map_cons, hq, hq', and_self]
  | group combinator h => exact Condition.AllAlike.values_eq h

/-- The same for conditions, from left to right. -/
theorem Condition.AllAlike.values_eq {cs cs' : List Condition} {ps : List (Value × Value)}
    (h : Condition.AllAlike mode cs cs' ps) :
    Condition.allValues mode cs = ps.map (·.1) ∧ Condition.allValues mode cs' = ps.map (·.2) := by
  cases h with
  | nil => exact ⟨rfl, rfl⟩
  | cons hc hrest =>
    obtain ⟨h, h'⟩ := Condition.Alike.values_eq hc
    obtain ⟨hr, hr'⟩ := Condition.AllAlike.values_eq hrest
    simp only [Condition.allValues, List.map_append, h, h', hr, hr', and_self]

/-- The same for a clause. -/
theorem WhereClause.Alike.values_eq {w w' : WhereClause} {ps : List (Value × Value)}
    (h : w.Alike mode w' ps) :
    w.values mode = ps.map (·.1) ∧ w'.values mode = ps.map (·.2) := by
  cases h with
  | mk hfirst hrest =>
    obtain ⟨h, h'⟩ := Condition.Alike.values_eq hfirst
    obtain ⟨hr, hr'⟩ := Condition.AllAlike.values_eq hrest
    simp only [WhereClause.values, List.map_append, h, h', hr, hr', and_self]

/-- The same for clauses, from left to right. -/
theorem WhereClause.AllAlike.values_eq {ws ws' : List WhereClause}
    {ps : List (Value × Value)} (h : WhereClause.AllAlike mode ws ws' ps) :
    WhereClause.allValues mode ws = ps.map (·.1) ∧
      WhereClause.allValues mode ws' = ps.map (·.2) := by
  cases h with
  | nil => exact ⟨rfl, rfl⟩
  | cons hw hrest =>
    obtain ⟨h, h'⟩ := WhereClause.Alike.values_eq hw
    obtain ⟨hr, hr'⟩ := WhereClause.AllAlike.values_eq hrest
    simp only [WhereClause.allValues, List.map_append, h, h', hr, hr', and_self]

end

/-! ### A query is like itself -/

/-- Every value with itself. -/
def samePairs (vs : List Value) : List (Value × Value) := vs.map fun v => (v, v)

theorem samePairs_append (vs ws : List Value) :
    samePairs (vs ++ ws) = samePairs vs ++ samePairs ws := List.map_append

/-- The first of each pair is the value. -/
theorem map_fst_samePairs (vs : List Value) : (samePairs vs).map (·.1) = vs := by
  simp [samePairs, Function.comp_def]

theorem map_snd_samePairs (vs : List Value) : (samePairs vs).map (·.2) = vs := by
  simp [samePairs, Function.comp_def]

/-- Pairs of equal values are the same values twice. -/
theorem map_fst_eq_map_snd {ps : List (Value × Value)} (h : ∀ p ∈ ps, p.1 = p.2) :
    ps.map (·.1) = ps.map (·.2) := List.map_congr_left h

mutual

/-- A query is like itself, with each value paired with itself. -/
theorem Select.alike_refl (mode : PatternMode) (q : Select) :
    q.Alike mode q (samePairs (q.values mode)) := by
  cases q with
  | mk fields tables joins clauses order limit offset alias? options fault =>
    rw [Select.values, samePairs_append]
    exact .mk (Field.allAlike_refl mode fields) (WhereClause.allAlike_refl mode clauses)

/-- An entry of a select list is like itself. -/
theorem Field.alike_refl (mode : PatternMode) (f : Field) :
    f.Alike mode f (samePairs (f.values mode)) := by
  cases f with
  | column sql => exact .column sql
  | call call => exact .call call
  | subquery query => exact .subquery (Select.alike_refl mode query) rfl

theorem Field.allAlike_refl (mode : PatternMode) (fs : List Field) :
    Field.AllAlike mode fs fs (samePairs (Field.allValues mode fs)) := by
  cases fs with
  | nil => exact .nil
  | cons f rest =>
    rw [Field.allValues, samePairs_append]
    exact .cons (Field.alike_refl mode f) (Field.allAlike_refl mode rest)

/-- A condition is like itself, be its pattern bound or not. -/
theorem Condition.alike_refl (mode : PatternMode) (c : Condition) :
    c.Alike mode c (samePairs (c.values mode)) := by
  cases c with
  | compare field op value => exact .compare field op value value
  | nullCheck field op => exact .nullCheck field op
  | inList field op values =>
    have h : Condition.Alike mode _ _ _ := .inList field op (samePairs values)
    rwa [map_fst_samePairs, map_snd_samePairs] at h
  | between field op low high => exact .between field op low low high high
  | pattern field op pattern =>
    cases mode with
    | inlined => exact .inlined field op pattern rfl
    | bound => exact .bound field op pattern pattern rfl
  | columns field op column => exact .columns field op column
  | subquery query op value => exact .subquery op value value (Select.alike_refl mode query)
  | group combinator conditions =>
    exact .group combinator (Condition.allAlike_refl mode conditions)
  | raw sql => exact .raw sql

theorem Condition.allAlike_refl (mode : PatternMode) (cs : List Condition) :
    Condition.AllAlike mode cs cs (samePairs (Condition.allValues mode cs)) := by
  cases cs with
  | nil => exact .nil
  | cons c rest =>
    rw [Condition.allValues, samePairs_append]
    exact .cons (Condition.alike_refl mode c) (Condition.allAlike_refl mode rest)

/-- A clause is like itself. -/
theorem WhereClause.alike_refl (mode : PatternMode) (w : WhereClause) :
    w.Alike mode w (samePairs (w.values mode)) := by
  cases w with
  | mk first rest =>
    rw [WhereClause.values, samePairs_append]
    exact .mk (Condition.alike_refl mode first) (Condition.allAlike_refl mode rest)

theorem WhereClause.allAlike_refl (mode : PatternMode) (ws : List WhereClause) :
    WhereClause.AllAlike mode ws ws (samePairs (WhereClause.allValues mode ws)) := by
  cases ws with
  | nil => exact .nil
  | cons w rest =>
    rw [WhereClause.allValues, samePairs_append]
    exact .cons (WhereClause.alike_refl mode w) (WhereClause.allAlike_refl mode rest)

end

/-! ### Rendering -/

open Render

/-- A pattern is bound or put into the text, as the options of the allocator say. -/
theorem Condition.outcome_pattern (field : String) (op : Operator) (pattern : String)
    (a : Allocator) :
    (Condition.pattern field op pattern).render.outcome a =
      match a.options.patterns with
      | .inlined => (.ok (field ++ " " ++ op.sql ++ " " ++ patternLiteral pattern), a)
      | .bound => (.ok (field ++ " " ++ op.sql ++ " " ++ Allocator.placeholder a.next),
          a.bind (.text pattern)) := by
  rw [Condition.render, outcome_bind, outcome_get]
  dsimp only
  cases a.options.patterns <;> rfl

/-- A query that recorded an error fails with it. -/
theorem Select.render_of_fault {q : Select} {e : Error} (h : q.fault = some e) :
    q.render = throw e := by
  obtain ⟨fields, tables, joins, clauses, order, limit, offset, alias?, options, fault⟩ := q
  obtain rfl : fault = some e := h
  rw [Select.render]
  rfl

/-- A query is checked before anything of it is rendered. -/
theorem Select.render_eq {q : Select} (h : q.fault = none) :
    q.render =
      if q.fields.isEmpty then throw .fieldsMissing
      else if q.tables.isEmpty then throw .tableMissing
      else do
        let fields ← Field.renderAll q.fields
        let clauses ← WhereClause.renderAll q.clauses
        return q.text fields clauses := by
  obtain ⟨fields, tables, joins, clauses, order, limit, offset, alias?, options, fault⟩ := q
  obtain rfl : fault = none := h
  rw [Select.render]
  · cases fields with
    | nil => rfl
    | cons f fields => cases tables <;> rfl
  · intro e he
    cases he

mutual

/-- Queries that are alike are rendered in the same way. -/
theorem Select.Alike.twins {q q' : Select} {ps : List (Value × Value)} (h : q.Alike mode q' ps) :
    Twins mode Numbered ps q.render q'.render := by
  cases h with
  | @mk _ _ tables _ _ _ _ _ _ _ _ _ _ fault _ _ hfields hclauses =>
    have hall := Field.AllAlike.twins hfields
    -- the checks look at nothing that differs
    cases fault with
    | some e =>
      rw [Select.render_of_fault rfl, Select.render_of_fault rfl]
      exact .throw e _
    | none =>
    rw [Select.render_eq rfl, Select.render_eq rfl]
    cases hfields with
    | nil => exact .throw .fieldsMissing _
    | cons _ _ =>
    cases tables with
    | nil => exact .throw .tableMissing _
    | cons _ _ =>
      -- the text is fixed but for the entries and the clauses, in this order
      refine Twins.seq hall (WhereClause.AllAlike.twins hclauses) NumberedAll.shift fun hx hy => ?_
      have hfields := ((hx.intercalate ", ").prepend "SELECT ").postpend " FROM "
      exact (((hfields.postpend _).postpend _).append hy.whereSuffix).postpend _

/-- The same for an entry of a select list. -/
theorem Field.Alike.twins {f f' : Field} {ps : List (Value × Value)} (h : f.Alike mode f' ps) :
    Twins mode Numbered ps f.render f'.render := by
  cases h with
  | column sql =>
    rw [Field.render]
    exact .pure (.text sql)
  | call call =>
    rw [Field.render]
    exact .liftExcept call.sql
  | subquery h halias =>
    rw [Field.render, Field.render, halias]
    exact (Select.Alike.twins h).map fun hx => ((hx.prepend "(").postpend ")").postpend _

/-- The same for entries, from left to right. -/
theorem Field.AllAlike.twins {fs fs' : List Field} {ps : List (Value × Value)}
    (h : Field.AllAlike mode fs fs' ps) :
    Twins mode NumberedAll ps (Field.renderAll fs) (Field.renderAll fs') := by
  cases h with
  | nil =>
    rw [Field.renderAll]
    exact .pure .nil
  | cons hf hrest =>
    rw [Field.renderAll, Field.renderAll]
    exact (Field.Alike.twins hf).seq (Field.AllAlike.twins hrest) NumberedAll.shift .cons

/-- Conditions that are alike are rendered in the same way. -/
theorem Condition.Alike.twins {c c' : Condition} {ps : List (Value × Value)}
    (h : c.Alike mode c' ps) : Twins mode Numbered ps c.render c'.render := by
  cases h with
  | compare field op v v' =>
    rw [Condition.render, Condition.render]
    exact (Twins.bindValue v v').map fun hx => hx.prepend _
  | nullCheck field op =>
    rw [Condition.render]
    exact .pure (.text _)
  | inList field op ps =>
    rw [Condition.render, Condition.render]
    exact (Twins.bindAll ps).map fun hx => ((hx.1.intercalate ", ").prepend _).postpend ")"
  | between field op low low' high high' =>
    rw [Condition.render, Condition.render]
    exact (Twins.bindValue low low').seq (Twins.bindValue high high') Numbered.shift
      fun hx hy => ((hx.prepend _).postpend " AND ").append hy
  -- here the pattern is a part of the text, so it is the same in both
  | inlined field op pattern hmode =>
    subst hmode
    refine ⟨.ok fun _ => field ++ " " ++ op.sql ++ " " ++ patternLiteral pattern, ?_, ?_, ?_⟩
    · rintro x ⟨⟩
      exact .text _
    all_goals
      intro a ha
      rw [Condition.outcome_pattern, ha]
      rfl
  -- here it is bound, so only its placeholder is in the text
  | bound field op pattern pattern' hmode =>
    subst hmode
    refine ⟨.ok fun k => field ++ " " ++ op.sql ++ " " ++ Allocator.placeholder k, ?_, ?_, ?_⟩
    · rintro x ⟨⟩
      exact (Numbered.slot 0).prepend (field ++ " " ++ op.sql ++ " ")
    all_goals
      intro a ha
      rw [Condition.outcome_pattern, ha]
      rfl
  | columns field op column =>
    rw [Condition.render]
    exact .pure (.text _)
  | subquery op v v' h =>
    rw [Condition.render, Condition.render]
    refine (Twins.bindValue v v').seq (Select.Alike.twins h) Numbered.shift fun hx hy => ?_
    -- the placeholder stands behind the query, although its value comes first
    rw [Multiset.add_comm]
    exact ((((hy.prepend "(").postpend ") ").postpend op.sql).postpend " ").append hx
  | group combinator h =>
    rw [Condition.render, Condition.render]
    exact (Condition.AllAlike.twins h).map fun hx => hx.combine combinator
  | raw sql =>
    rw [Condition.render]
    exact .pure (.text sql)

/-- The same for conditions, from left to right. -/
theorem Condition.AllAlike.twins {cs cs' : List Condition} {ps : List (Value × Value)}
    (h : Condition.AllAlike mode cs cs' ps) :
    Twins mode NumberedAll ps (Condition.renderAll cs) (Condition.renderAll cs') := by
  cases h with
  | nil =>
    rw [Condition.renderAll]
    exact .pure .nil
  | cons hc hrest =>
    rw [Condition.renderAll, Condition.renderAll]
    exact (Condition.Alike.twins hc).seq (Condition.AllAlike.twins hrest) NumberedAll.shift .cons

/-- The same for a clause, whose conditions are joined by AND. -/
theorem WhereClause.Alike.twins {w w' : WhereClause} {ps : List (Value × Value)}
    (h : w.Alike mode w' ps) : Twins mode Numbered ps w.render w'.render := by
  cases h with
  | mk hfirst hrest =>
    rw [WhereClause.render, WhereClause.render]
    exact (Condition.Alike.twins hfirst).seq (Condition.AllAlike.twins hrest) NumberedAll.shift
      fun hx hy => (NumberedAll.cons hx hy).joinNonempty " AND "

/-- The same for clauses, from left to right. -/
theorem WhereClause.AllAlike.twins {ws ws' : List WhereClause} {ps : List (Value × Value)}
    (h : WhereClause.AllAlike mode ws ws' ps) :
    Twins mode NumberedAll ps (WhereClause.renderAll ws) (WhereClause.renderAll ws') := by
  cases h with
  | nil =>
    rw [WhereClause.renderAll]
    exact .pure .nil
  | cons hw hrest =>
    rw [WhereClause.renderAll, WhereClause.renderAll]
    exact (WhereClause.Alike.twins hw).seq (WhereClause.AllAlike.twins hrest) NumberedAll.shift
      .cons

end

end SqlAssembly

import SqlAssembly.Proofs.Query.Alike
import SqlAssembly.Proofs.Query.Embedding

namespace SqlAssembly

/-!
# How renderings end

Whether rendering a query fails, and with which error, does not depend on what was bound before.
Everything that can go wrong is told by the query itself and by the queries that are embedded in it,
each of which is checked before anything of it is rendered.

* `Render.Ends` — a computation always ends with the same error, or never with one;
* `Select.selects`, `Select.mem_selects_iff` — the embedded queries in the order of rendering, the
  query itself first;
* `Select.ownError`, `firstError` — what is wrong with one query, and with the first of several;
* `Select.ends_render` — rendering ends with the first error.
-/

/-! ### Endings -/

namespace Render

variable {α β : Type}

/-- Whatever was bound before, the computation fails with the error, or succeeds if there is
none. -/
def Ends (r : Render α) : Option Error → Prop
  | some e => ∀ a, (r.outcome a).1 = .error e
  | none => ∀ a, ∃ x, (r.outcome a).1 = .ok x

namespace Ends

theorem pure (x : α) : Ends (pure x) none := fun _ => ⟨x, rfl⟩

theorem throw (e : Error) : Ends (throw e : Render α) (some e) := fun _ => rfl

/-- Binding a value never fails. -/
theorem bindValue (v : Value) : Ends (Render.bind v) none := fun _ => ⟨_, rfl⟩

/-- Binding several values never fails. -/
theorem bindAll (vs : List Value) : Ends (Render.bindAll vs) none := by
  intro a
  rw [outcome_bindAll]
  exact ⟨_, rfl⟩

/-- The first of two steps that fails gives the error. -/
theorem bind {x : Render α} {f : α → Render β} {first second : Option Error} (hx : Ends x first)
    (hf : ∀ v, Ends (f v) second) : Ends (x >>= f) (first.or second) := by
  cases first with
  | some e =>
    intro a
    have hfailed : (x.outcome a).1 = .error e := hx a
    rcases hout : x.outcome a with ⟨e' | v, m⟩
    · rw [hout] at hfailed
      rw [outcome_bind, hout]
      exact congrArg Except.error (Except.error.inj hfailed)
    · rw [hout] at hfailed
      cases hfailed
  | none =>
    rw [Option.none_or]
    -- without a first error the outcome is that of the second step, on some allocator
    have hsecond : ∀ a, ∃ v m, (x >>= f).outcome a = (f v).outcome m := by
      intro a
      obtain ⟨v, hv⟩ := hx a
      rcases hout : x.outcome a with ⟨e | v', m⟩
      · rw [hout] at hv
        cases hv
      · exact ⟨v', m, by rw [outcome_bind, hout]⟩
    cases second with
    | some e =>
      intro a
      obtain ⟨v, m, h⟩ := hsecond a
      rw [h]
      exact hf v m
    | none =>
      intro a
      obtain ⟨v, m, h⟩ := hsecond a
      rw [h]
      exact hf v m

/-- A step behind which nothing fails. -/
theorem map {x : Render α} {f : α → Render β} {first : Option Error} (hx : Ends x first)
    (hf : ∀ v, Ends (f v) none) : Ends (x >>= f) first := by
  have h := hx.bind hf
  rwa [Option.or_none] at h

/-- On every allocator the error is the one it ends with. -/
theorem error_iff {r : Render α} {error? : Option Error} (h : Ends r error?) (a : Allocator)
    (e : Error) : (r.outcome a).1 = .error e ↔ error? = some e := by
  cases error? with
  | some e' =>
    have hfailed : (r.outcome a).1 = .error e' := h a
    rw [hfailed, Except.error.injEq, Option.some.injEq]
  | none =>
    obtain ⟨x, hx⟩ := h a
    rw [hx]
    exact ⟨nofun, nofun⟩

end Ends

end Render

/-! ### Queries in the order of rendering -/

mutual

/-- The query, and the queries that are embedded in it at any depth: those of its entries first, and
each query in front of those embedded in it. -/
def Select.selects : Select → List Select
  | ⟨fields, tables, joins, clauses, order, limit, offset, alias?, options, fault⟩ =>
    ⟨fields, tables, joins, clauses, order, limit, offset, alias?, options, fault⟩ ::
      (Field.allSelects fields ++ WhereClause.allSelects clauses)

/-- The queries in an entry of a select list. -/
def Field.selects : Field → List Select
  | .column _ | .call _ => []
  | .subquery query => query.selects

/-- The queries in entries, from left to right. -/
def Field.allSelects : List Field → List Select
  | [] => []
  | f :: rest => f.selects ++ Field.allSelects rest

/-- The queries in a condition. -/
def Condition.selects : Condition → List Select
  | .subquery query _ _ => query.selects
  | .group _ conditions => Condition.allSelects conditions
  | .compare _ _ _ | .nullCheck _ _ | .inList _ _ _ | .between _ _ _ _ | .pattern _ _ _
  | .columns _ _ _ | .raw _ => []

/-- The queries in conditions, from left to right. -/
def Condition.allSelects : List Condition → List Select
  | [] => []
  | c :: rest => c.selects ++ Condition.allSelects rest

/-- The queries in a clause. -/
def WhereClause.selects : WhereClause → List Select
  | ⟨first, rest⟩ => first.selects ++ Condition.allSelects rest

/-- The queries in clauses, from left to right. -/
def WhereClause.allSelects : List WhereClause → List Select
  | [] => []
  | w :: rest => w.selects ++ WhereClause.allSelects rest

end

/-- The queries in a query, with its parts taken as fields. -/
theorem Select.selects_eq (q : Select) :
    q.selects = q :: (Field.allSelects q.fields ++ WhereClause.allSelects q.clauses) := by
  cases q
  rfl

/-- The queries in a clause are those in its conditions. -/
theorem WhereClause.selects_eq (w : WhereClause) :
    w.selects = Condition.allSelects w.conditions := by
  obtain ⟨first, rest⟩ := w
  rw [WhereClause.selects, conditions, Condition.allSelects]

/-- The queries in entries are those in each, in order. -/
theorem Field.allSelects_eq_flatMap (fs : List Field) :
    Field.allSelects fs = fs.flatMap Field.selects := by
  induction fs with
  | nil => rfl
  | cons f rest ih => rw [Field.allSelects, List.flatMap_cons, ih]

/-- The queries in conditions are those in each, in order. -/
theorem Condition.allSelects_eq_flatMap (cs : List Condition) :
    Condition.allSelects cs = cs.flatMap Condition.selects := by
  induction cs with
  | nil => rfl
  | cons c rest ih => rw [Condition.allSelects, List.flatMap_cons, ih]

/-- The queries in clauses are those in each, in order. -/
theorem WhereClause.allSelects_eq_flatMap (ws : List WhereClause) :
    WhereClause.allSelects ws = ws.flatMap WhereClause.selects := by
  induction ws with
  | nil => rfl
  | cons w rest ih => rw [WhereClause.allSelects, List.flatMap_cons, ih]

/-- A query in clauses is in a condition of one of them. -/
theorem WhereClause.mem_allSelects {ws : List WhereClause} {q : Select} :
    q ∈ WhereClause.allSelects ws ↔ ∃ w ∈ ws, ∃ c ∈ w.conditions, q ∈ c.selects := by
  simp only [allSelects_eq_flatMap, selects_eq, Condition.allSelects_eq_flatMap, List.mem_flatMap]

/-- A query in a query is that query, or in one of its entries or conditions. -/
theorem Select.mem_selects {p q : Select} :
    q ∈ p.selects ↔ q = p ∨ (∃ f ∈ p.fields, q ∈ f.selects) ∨
      ∃ w ∈ p.clauses, ∃ c ∈ w.conditions, q ∈ c.selects := by
  rw [selects_eq, List.mem_cons, List.mem_append, Field.allSelects_eq_flatMap, List.mem_flatMap,
    WhereClause.mem_allSelects]

mutual

/-- The queries that are listed are embedded. -/
theorem Select.within_of_mem (q p : Select) (h : q ∈ p.selects) : q.Within p := by
  cases p with
  | mk fields tables joins clauses order limit offset alias? options fault =>
    rw [Select.selects, List.mem_cons, List.mem_append] at h
    rcases h with rfl | hfields | hclauses
    · exact .refl
    · obtain ⟨r, hr, hwithin⟩ := Field.within_of_mem q fields hfields
      exact .field hr hwithin
    · obtain ⟨w, hw, c, hc, hwithin⟩ := WhereClause.within_of_mem q clauses hclauses
      exact .clause hw hc hwithin

/-- The same for entries: the query is embedded in one of their queries. -/
theorem Field.within_of_mem (q : Select) (fs : List Field) (h : q ∈ Field.allSelects fs) :
    ∃ r, .subquery r ∈ fs ∧ q.Within r := by
  cases fs with
  | nil => cases h
  | cons f rest =>
    rw [Field.allSelects, List.mem_append] at h
    rcases h with hfirst | hrest
    · cases f with
      | column text => cases hfirst
      | call call => cases hfirst
      | subquery r => exact ⟨r, List.mem_cons_self, Select.within_of_mem q r hfirst⟩
    · obtain ⟨r, hr, hwithin⟩ := Field.within_of_mem q rest hrest
      exact ⟨r, List.mem_cons_of_mem _ hr, hwithin⟩

/-- The same for a condition. -/
theorem Condition.within_of_mem (q : Select) (c : Condition) (h : q ∈ c.selects) :
    Condition.Within q c := by
  cases c with
  | subquery r op value => exact .subquery op value (Select.within_of_mem q r h)
  | group combinator conditions =>
    obtain ⟨c, hc, hwithin⟩ := Condition.within_of_mem_all q conditions h
    exact .group combinator hc hwithin
  | compare | nullCheck | inList | between | pattern | columns | raw => cases h

/-- The same for conditions: the query is embedded in one of them. -/
theorem Condition.within_of_mem_all (q : Select) (cs : List Condition)
    (h : q ∈ Condition.allSelects cs) : ∃ c ∈ cs, Condition.Within q c := by
  cases cs with
  | nil => cases h
  | cons c rest =>
    rw [Condition.allSelects, List.mem_append] at h
    rcases h with hfirst | hrest
    · exact ⟨c, List.mem_cons_self, Condition.within_of_mem q c hfirst⟩
    · obtain ⟨d, hd, hwithin⟩ := Condition.within_of_mem_all q rest hrest
      exact ⟨d, List.mem_cons_of_mem _ hd, hwithin⟩

/-- The same for clauses: the query is embedded in a condition of one of them. -/
theorem WhereClause.within_of_mem (q : Select) (ws : List WhereClause)
    (h : q ∈ WhereClause.allSelects ws) : ∃ w ∈ ws, ∃ c ∈ w.conditions, Condition.Within q c := by
  cases ws with
  | nil => cases h
  | cons w rest =>
    rw [WhereClause.allSelects, List.mem_append] at h
    rcases h with hfirst | hrest
    · cases w with
      | mk first others =>
        rw [WhereClause.selects, List.mem_append] at hfirst
        rcases hfirst with hfirst | hothers
        · exact ⟨_, List.mem_cons_self, first, List.mem_cons_self,
            Condition.within_of_mem q first hfirst⟩
        · obtain ⟨c, hc, hwithin⟩ := Condition.within_of_mem_all q others hothers
          exact ⟨_, List.mem_cons_self, c, List.mem_cons_of_mem first hc, hwithin⟩
    · obtain ⟨v, hv, hwithin⟩ := WhereClause.within_of_mem q rest hrest
      exact ⟨v, List.mem_cons_of_mem _ hv, hwithin⟩

end

/-- A query in a member of a group is in the group. -/
theorem Condition.mem_selects_group {q : Select} {combinator : Combinator}
    {conditions : List Condition} {c : Condition} (hc : c ∈ conditions) (h : q ∈ c.selects) :
    q ∈ (Condition.group combinator conditions).selects := by
  rw [selects, allSelects_eq_flatMap]
  exact List.mem_flatMap_of_mem hc h

/-- The queries in a query are those that are embedded in it at any depth. -/
theorem Select.mem_selects_iff {q p : Select} : q ∈ p.selects ↔ q.Within p := by
  refine ⟨Select.within_of_mem q p, fun h => ?_⟩
  -- the relation is mutual, so its recursor takes what is shown of queries and of conditions
  exact @Select.Within.rec q (fun p _ => q ∈ p.selects) (fun c _ => q ∈ c.selects)
    (mem_selects.mpr (.inl rfl)) (fun hr _ h => mem_selects.mpr (.inr (.inl ⟨_, hr, h⟩)))
    (fun hw hc _ h => mem_selects.mpr (.inr (.inr ⟨_, hw, _, hc, h⟩))) (fun _ _ _ h => h)
    (fun _ _ _ hc _ h => Condition.mem_selects_group hc h) p h

/-- The queries in a condition are those that are embedded in it at any depth. -/
theorem Condition.mem_selects_iff {q : Select} {c : Condition} :
    q ∈ c.selects ↔ Condition.Within q c := by
  refine ⟨Condition.within_of_mem q c, fun h => ?_⟩
  cases h with
  | subquery op value h => exact Select.mem_selects_iff.mpr h
  | group combinator hc h => exact Condition.mem_selects_group hc (Condition.mem_selects_iff.mpr h)

/-! ### The first error -/

/-- What is wrong with a query by itself: the error that was recorded, or else no entries, or else
no table. -/
def Select.ownError (q : Select) : Option Error :=
  match q.fault with
  | some e => some e
  | none =>
    if q.fields = [] then some .fieldsMissing
    else if q.tables = [] then some .tableMissing
    else none

/-- Nothing is wrong with a query that recorded no error and has entries and a table. -/
theorem Select.ownError_eq_none {q : Select} :
    q.ownError = none ↔ q.fault = none ∧ q.fields ≠ [] ∧ q.tables ≠ [] := by
  unfold ownError
  cases q.fault with
  | some e => exact ⟨nofun, fun h => nomatch h.1⟩
  | none =>
    by_cases hfields : q.fields = []
    · simp [hfields]
    · by_cases htables : q.tables = [] <;> simp [hfields, htables]

/-- The first error of queries. -/
def firstError (qs : List Select) : Option Error := qs.findSome? Select.ownError

/-- The first error is among the first queries, or else among the others. -/
theorem firstError_append (ps qs : List Select) :
    firstError (ps ++ qs) = (firstError ps).or (firstError qs) := List.findSome?_append

/-- The first error is that of the first query, or else among the others. -/
theorem firstError_cons (q : Select) (qs : List Select) :
    firstError (q :: qs) = q.ownError.or (firstError qs) := by
  rw [firstError, List.findSome?_cons]
  cases q.ownError <;> rfl

/-- There is no error if nothing is wrong with any of the queries. -/
theorem firstError_eq_none {qs : List Select} :
    firstError qs = none ↔ ∀ q ∈ qs, q.fault = none ∧ q.fields ≠ [] ∧ q.tables ≠ [] := by
  simp only [firstError, List.findSome?_eq_none_iff, Select.ownError_eq_none]

/-- The calls among entries can be written. -/
def Field.CallsFine (fs : List Field) : Prop := ∀ call, .call call ∈ fs → ∃ sql, call.sql = .ok sql

/-- The calls among the entries of queries can be written. -/
def Select.CallsFine (qs : List Select) : Prop := ∀ q ∈ qs, Field.CallsFine q.fields

/-- Calls that can be written in all queries can be in the first ones. -/
theorem Select.CallsFine.left {ps qs : List Select} (h : CallsFine (ps ++ qs)) : CallsFine ps :=
  fun q hq => h q (List.mem_append_left _ hq)

theorem Select.CallsFine.right {ps qs : List Select} (h : CallsFine (ps ++ qs)) : CallsFine qs :=
  fun q hq => h q (List.mem_append_right _ hq)

open Render (Ends)

mutual

/-- Rendering a query ends with the first error of the query and of those embedded in it. -/
theorem Select.ends_render (q : Select) (h : Select.CallsFine q.selects) :
    Ends q.render (firstError q.selects) := by
  cases q with
  | mk fields tables joins clauses order limit offset alias? options fault =>
    have hcalls : Field.CallsFine fields := h _ List.mem_cons_self
    have hparts : Select.CallsFine (Field.allSelects fields ++ WhereClause.allSelects clauses) :=
      fun q hq => h q (List.mem_cons_of_mem _ hq)
    have hfields := Field.ends_renderAll fields hcalls hparts.left
    have hclauses := WhereClause.ends_renderAll clauses hparts.right
    rw [Select.selects, firstError_cons]
    -- the query itself is looked at before any part of it is rendered
    cases fault with
    | some e =>
      rw [Select.render_of_fault rfl]
      exact .throw e
    | none =>
    rw [Select.render_eq rfl]
    cases fields with
    | nil => exact .throw .fieldsMissing
    | cons f fields =>
    cases tables with
    | nil => exact .throw .tableMissing
    | cons t tables =>
      rw [firstError_append]
      exact hfields.bind fun _ => hclauses.map fun _ => .pure _

/-- Rendering entries ends with the first error of the queries in them, if their calls can be
written. -/
theorem Field.ends_renderAll (fs : List Field) (hcalls : Field.CallsFine fs)
    (h : Select.CallsFine (Field.allSelects fs)) :
    Ends (Field.renderAll fs) (firstError (Field.allSelects fs)) := by
  cases fs with
  | nil =>
    rw [Field.renderAll]
    exact .pure []
  | cons f rest =>
    have hrest := Field.ends_renderAll rest
      (fun call hcall => hcalls call (List.mem_cons_of_mem f hcall)) h.right
    have hfirst : Ends f.render (firstError f.selects) := by
      cases f with
      | column text =>
        rw [Field.render]
        exact .pure text
      | call call =>
        -- a call is the one entry that could fail by itself, and it cannot
        obtain ⟨sql, hsql⟩ := hcalls call List.mem_cons_self
        intro a
        rw [Field.render, Render.outcome_liftExcept]
        exact ⟨sql, hsql⟩
      | subquery query =>
        rw [Field.render]
        exact (Select.ends_render query h.left).map fun _ => .pure _
    rw [Field.renderAll, Field.allSelects, firstError_append]
    exact hfirst.bind fun _ => hrest.map fun _ => .pure _

/-- Rendering a condition ends with the first error of the queries in it. -/
theorem Condition.ends_render (c : Condition) (h : Select.CallsFine c.selects) :
    Ends c.render (firstError c.selects) := by
  cases c with
  | compare field op value =>
    rw [Condition.render]
    exact (Ends.bindValue value).map fun _ => .pure _
  | nullCheck field op =>
    rw [Condition.render]
    exact .pure _
  | inList field op values =>
    rw [Condition.render]
    exact (Ends.bindAll values).map fun _ => .pure _
  | between field op low high =>
    rw [Condition.render]
    exact (Ends.bindValue low).map fun _ => (Ends.bindValue high).map fun _ => .pure _
  | pattern field op pattern =>
    intro a
    rw [Condition.outcome_pattern]
    -- neither way of writing a pattern fails
    cases a.options.patterns with
    | inlined => exact ⟨_, rfl⟩
    | bound => exact ⟨_, rfl⟩
  | columns field op column =>
    rw [Condition.render]
    exact .pure _
  | subquery query op value =>
    rw [Condition.render]
    exact (Ends.bindValue value).bind fun _ => (Select.ends_render query h).map fun _ => .pure _
  | group combinator conditions =>
    rw [Condition.render]
    exact (Condition.ends_renderAll conditions h).map fun _ => .pure _
  | raw sql =>
    rw [Condition.render]
    exact .pure sql

/-- The same for conditions, from left to right. -/
theorem Condition.ends_renderAll (cs : List Condition)
    (h : Select.CallsFine (Condition.allSelects cs)) :
    Ends (Condition.renderAll cs) (firstError (Condition.allSelects cs)) := by
  cases cs with
  | nil =>
    rw [Condition.renderAll]
    exact .pure []
  | cons c rest =>
    have hfirst := Condition.ends_render c h.left
    have hrest := Condition.ends_renderAll rest h.right
    rw [Condition.renderAll, Condition.allSelects, firstError_append]
    exact hfirst.bind fun _ => hrest.map fun _ => .pure _

/-- The same for clauses, from left to right. -/
theorem WhereClause.ends_renderAll (ws : List WhereClause)
    (h : Select.CallsFine (WhereClause.allSelects ws)) :
    Ends (WhereClause.renderAll ws) (firstError (WhereClause.allSelects ws)) := by
  cases ws with
  | nil =>
    rw [WhereClause.renderAll]
    exact .pure []
  | cons w rest =>
    have hrest := WhereClause.ends_renderAll rest h.right
    have hfirst : Ends w.render (firstError w.selects) := by
      cases w with
      | mk first others =>
        have hparts : Select.CallsFine (first.selects ++ Condition.allSelects others) := h.left
        have hothers := Condition.ends_renderAll others hparts.right
        rw [WhereClause.render, WhereClause.selects, firstError_append]
        exact (Condition.ends_render first hparts.left).bind fun _ => hothers.map fun _ => .pure _
    rw [WhereClause.renderAll, WhereClause.allSelects, firstError_append]
    exact hfirst.bind fun _ => hrest.map fun _ => .pure _

end

end SqlAssembly

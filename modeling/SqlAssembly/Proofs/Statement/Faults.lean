import SqlAssembly.Proofs.Query.Assembled
import SqlAssembly.Proofs.Statement.Embedding
import SqlAssembly.Proofs.Statement.Placeholders

namespace SqlAssembly

/-!
# How builds end

A statement that was put together by calls is built, or it fails with the first thing that is wrong
with it: the statement itself is looked at before the queries that are embedded in it, and these in
the order of rendering.  Nothing else can go wrong.

* `Statement.Assembled` — whatever callers can put together, with the name of the table;
* `Statement.firstError` — the first thing that is wrong;
* `Target.Keeps`, `Target.Kept` — the table and the first error stay, whatever is called;
* `Statement.ends_render` — rendering ends with the first error;
* `Statement.build_ends` — when a build succeeds, and which error it gives.
-/

/-! ### What callers can put together -/

/-- A call with filters of any kind. -/
def Update.Call.Assembled : Update.Call → Prop
  | .filters fs => ∀ f ∈ fs, f.Assembled
  | .set _ _ | .setAll _ | .options _ => True

@[inherit_doc Update.Call.Assembled]
def Delete.Call.Assembled : Delete.Call → Prop
  | .filters fs => ∀ f ∈ fs, f.Assembled
  | .options _ => True

/-- The queries, and the other statements with the names of their tables, that are put together by
calls. -/
inductive Statement.Assembled : Option String → Statement → Prop
  | select {q : Select} (hq : q.Assembled) : Statement.Assembled none (.select q)
  | insert (table : String) (calls : List Insert.Call) :
    Statement.Assembled (some table) (.insert (.ofCalls table calls))
  | update (table : String) {calls : List Update.Call} (hcalls : ∀ c ∈ calls, c.Assembled) :
    Statement.Assembled (some table) (.update (.ofCalls table calls))
  | delete (table : String) {calls : List Delete.Call} (hcalls : ∀ c ∈ calls, c.Assembled) :
    Statement.Assembled (some table) (.delete (.ofCalls table calls))

/-! ### What is wrong with a statement -/

/-- What is wrong with a table: the error that was recorded, or else there is none. -/
def Target.ownError (t : Target) : Option Error :=
  match t.fault with
  | some e => some e
  | none => if t.table = none then some .tableMissing else none

/-- A table that cannot be resolved has an error of its own, and that is the one. -/
theorem Target.resolve_eq_error {t : Target} {e : Error} (h : t.resolve = .error e) :
    t.ownError = some e := by
  obtain ⟨table, fault⟩ := t
  cases fault with
  | some e' => exact congrArg some (Except.error.inj h)
  | none =>
    cases table with
    | none => exact congrArg some (Except.error.inj h)
    | some table => cases h

/-- A table is in order if nothing was recorded and it has a name. -/
theorem Target.ownError_eq_none {t : Target} :
    t.ownError = none ↔ t.fault = none ∧ t.table ≠ none := by
  unfold ownError
  cases t.fault with
  | some e => exact ⟨nofun, fun h => nomatch h.1⟩
  | none => by_cases htable : t.table = none <;> simp [htable]

/-- A table that is resolved is in order. -/
theorem Target.ownError_of_resolve {t : Target} {table : String} (h : t.resolve = .ok table) :
    t.ownError = none := by
  obtain ⟨hfault, htable⟩ := resolve_ok h
  exact ownError_eq_none.mpr ⟨hfault, by rw [htable]; nofun⟩

namespace Statement

/-- The error that was recorded. -/
def recorded : Statement → Option Error
  | .select q => q.fault
  | .insert s => s.target.fault
  | .update s => s.target.fault
  | .delete s => s.target.fault
  | .createTable s => s.target.fault
  | .dropTable s => s.target.fault
  | .raw _ => none

/-- An INSERT and an UPDATE have the value of a column. -/
def HasValues : Statement → Prop
  | .insert s => s.values ≠ []
  | .update s => s.sets ≠ []
  | .select _ | .delete _ | .createTable _ | .dropTable _ | .raw _ => True

/-- What is wrong with an INSERT, an UPDATE or a DELETE by itself: its table first, then there are
no values.  A query is looked at as one of its queries. -/
def ownError : Statement → Option Error
  | .insert s =>
    s.target.ownError.or (if s.values = [] then some (.columnsMissing .insert) else none)
  | .update s =>
    s.target.ownError.or (if s.sets = [] then some (.columnsMissing .update) else none)
  | .delete s => s.target.ownError
  | .select _ | .createTable _ | .dropTable _ | .raw _ => none

/-- The queries in a statement, in the order of rendering; a query is the first one itself. -/
def selects : Statement → List Select
  | .select q => q.selects
  | .update s => WhereClause.allSelects s.clauses
  | .delete s => WhereClause.allSelects s.clauses
  | .insert _ | .createTable _ | .dropTable _ | .raw _ => []

/-- The first thing that is wrong with a statement. -/
def firstError (s : Statement) : Option Error := s.ownError.or (SqlAssembly.firstError s.selects)

/-- The queries in a statement are those that are embedded in it at any depth. -/
theorem mem_selects_iff {s : Statement} {q : Select} : q ∈ s.selects ↔ s.Embeds q := by
  -- queries in conditions are found clause by clause
  have hclauses : ∀ ws : List WhereClause, q ∈ WhereClause.allSelects ws ↔
      ∃ w ∈ ws, ∃ c ∈ w.conditions, Condition.Within q c := by
    intro ws
    simp only [WhereClause.mem_allSelects, Condition.mem_selects_iff]
  constructor
  · intro h
    cases s with
    | select p => exact .select (Select.mem_selects_iff.mp h)
    | update u =>
      obtain ⟨w, hw, c, hc, hwithin⟩ := (hclauses u.clauses).mp h
      exact .update hw hc hwithin
    | delete d =>
      obtain ⟨w, hw, c, hc, hwithin⟩ := (hclauses d.clauses).mp h
      exact .delete hw hc hwithin
    | insert | createTable | dropTable | raw => cases h
  · intro h
    cases h with
    | select hwithin => exact Select.mem_selects_iff.mpr hwithin
    | update hw hc hwithin => exact (hclauses _).mpr ⟨_, hw, _, hc, hwithin⟩
    | delete hw hc hwithin => exact (hclauses _).mpr ⟨_, hw, _, hc, hwithin⟩

end Statement

/-! ### What every call keeps -/

/-- The table is the first one, and an error that was recorded for that is not lost. -/
def Target.Keeps (t first : Target) : Prop :=
  t.table = first.table ∧ (t.fault = none → first.fault = none)

theorem Target.Keeps.refl (t : Target) : t.Keeps t := ⟨rfl, id⟩

theorem Target.Keeps.record {t first : Target} (h : t.Keeps first) (e : Error) :
    (t.record e).Keeps first := ⟨h.1, fun hnone => absurd hnone (fault_record_ne_none t e)⟩

/-- Without an error there is a table, unless the name is blank. -/
theorem Target.ofName_ne_none {name : String} (h : (Target.ofName name).fault = none) :
    (Target.ofName name).table ≠ none ↔ Text.allBlank name.toList = false := by
  unfold ofName at h ⊢
  by_cases hblank : Text.allBlank name.toList = true
  · simp [hblank]
  · rw [if_neg hblank] at h ⊢
    cases hquote : QualifiedName.quoteTable name with
    | ok table => simp [hblank]
    | error e =>
      rw [hquote] at h
      cases h

/-- What is wrong with a table that was named first and kept. -/
theorem Target.Keeps.ownError_eq_none {t : Target} {name : String} (h : t.Keeps (.ofName name)) :
    t.ownError = none ↔ t.fault = none ∧ Text.allBlank name.toList = false := by
  rw [Target.ownError_eq_none]
  refine and_congr_right fun hfault => ?_
  rw [h.1]
  exact ofName_ne_none (h.2 hfault)

/-- A value keeps the table, accepted or not. -/
theorem Insert.keeps_value {s : Insert} {first : Target} (h : s.target.Keeps first)
    (column : String) (v : Value) : (s.value column v).target.Keeps first := by
  unfold value
  split
  · exact h
  · exact h.record _

/-- Every chain of calls on an INSERT keeps the table. -/
theorem Insert.keeps_ofCalls (table : String) (calls : List Insert.Call) :
    (Insert.ofCalls table calls).target.Keeps (.ofName table) := by
  -- the invariant is what the chain keeps, call by call
  refine foldl_invariant (P := fun s : Insert => s.target.Keeps (.ofName table)) (.refl _)
    fun s call _ hs => ?_
  cases call with
  | value column v => exact keeps_value hs column v
  | values vs =>
    exact foldl_invariant (P := fun s : Insert => s.target.Keeps (.ofName table)) hs
      fun s v _ hs => keeps_value hs v.1 v.2
  | options o => exact hs

/-- The table is the first one, and the calls in the queries can be written. -/
structure Target.Kept (name : String) (t : Target) (clauses : List WhereClause) : Prop where
  target : t.Keeps (.ofName name)
  clauses : Select.CallsFine (WhereClause.allSelects clauses)

namespace Target.Kept

variable {name : String} {t : Target} {clauses : List WhereClause}

theorem record (h : Kept name t clauses) (e : Error) : Kept name (t.record e) clauses :=
  ⟨h.target.record e, h.clauses⟩

/-- One more clause, of filters of any kind. -/
theorem filters (h : Kept name t clauses) {filters : List Filter}
    (hfilters : ∀ f ∈ filters, f.Assembled) {w : WhereClause}
    (hw : WhereClause.ofFilters filters = .ok w) : Kept name t (clauses ++ [w]) := by
  refine ⟨h.target, WhereClause.callsFine_append h.clauses fun c hc => ?_⟩
  obtain ⟨f, hf, hclassify⟩ := Condition.exists_classify_of_mem_ofFilters hw hc
  exact Filter.callsFine_of_assembled (hfilters f hf) hclassify

end Target.Kept

/-- A new value keeps the table and the conditions. -/
theorem Update.kept_set {table : String} {s : Update}
    (h : Target.Kept table s.target s.clauses) (column : String) (v : Value) :
    Target.Kept table (s.set column v).target (s.set column v).clauses := by
  unfold Update.set
  split
  · exact h
  · exact h.record _

/-- Every chain of calls on an UPDATE keeps the table, with conditions that can be written. -/
theorem Update.kept_ofCalls (table : String) {calls : List Update.Call}
    (hcalls : ∀ c ∈ calls, c.Assembled) :
    Target.Kept table (Update.ofCalls table calls).target (Update.ofCalls table calls).clauses := by
  refine foldl_invariant (P := fun s : Update => Target.Kept table s.target s.clauses)
    ⟨.refl _, nofun⟩ fun s call hcall hs => ?_
  cases call with
  | set column v => exact kept_set hs column v
  | setAll vs =>
    exact foldl_invariant (P := fun s : Update => Target.Kept table s.target s.clauses) hs
      fun s v _ hs => kept_set hs v.1 v.2
  | filters fs =>
    show Target.Kept table (s.filterAll fs).target (s.filterAll fs).clauses
    unfold Update.filterAll
    split
    · next w hw => exact hs.filters (hcalls _ hcall) hw
    · exact hs.record _
  | options o => exact hs

/-- Every chain of calls on a DELETE keeps the table, with conditions that can be written. -/
theorem Delete.kept_ofCalls (table : String) {calls : List Delete.Call}
    (hcalls : ∀ c ∈ calls, c.Assembled) :
    Target.Kept table (Delete.ofCalls table calls).target (Delete.ofCalls table calls).clauses := by
  refine foldl_invariant (P := fun s : Delete => Target.Kept table s.target s.clauses)
    ⟨.refl _, nofun⟩ fun s call hcall hs => ?_
  cases call with
  | filters fs =>
    show Target.Kept table (s.filterAll fs).target (s.filterAll fs).clauses
    unfold Delete.filterAll
    split
    · next w hw => exact hs.filters (hcalls _ hcall) hw
    · exact hs.record _
  | options o => exact hs

/-! ### How rendering ends -/

open Render (Ends)

/-- An INSERT ends with its first error, if it has one. -/
theorem Insert.ends_render (s : Insert) :
    Ends s.render (Statement.firstError (.insert s)) := by
  rw [Statement.firstError, Statement.ownError, Statement.selects, Insert.render_eq]
  cases hresolve : s.target.resolve with
  | error e =>
    rw [Target.resolve_eq_error hresolve]
    exact .throw e
  | ok table =>
    rw [Target.ownError_of_resolve hresolve]
    cases s.values with
    | nil => exact .throw _
    | cons v vs => exact (Ends.bindAll _).map fun _ => .pure _

/-- An UPDATE ends with its first error, if its calls can be written. -/
theorem Update.ends_render (s : Update)
    (h : Select.CallsFine (WhereClause.allSelects s.clauses)) :
    Ends s.render (Statement.firstError (.update s)) := by
  -- the queries in the conditions are looked at behind the statement itself
  have hclauses := WhereClause.ends_renderAll s.clauses h
  rw [Statement.firstError, Statement.ownError, Statement.selects, Update.render_eq]
  cases hresolve : s.target.resolve with
  | error e =>
    rw [Target.resolve_eq_error hresolve]
    exact .throw e
  | ok table =>
    rw [Target.ownError_of_resolve hresolve]
    cases s.sets with
    | nil => exact .throw _
    | cons v vs => exact (Ends.bindAll _).bind fun _ => hclauses.map fun _ => .pure _

/-- A DELETE ends with its first error, if its calls can be written. -/
theorem Delete.ends_render (s : Delete)
    (h : Select.CallsFine (WhereClause.allSelects s.clauses)) :
    Ends s.render (Statement.firstError (.delete s)) := by
  have hclauses := WhereClause.ends_renderAll s.clauses h
  rw [Statement.firstError, Statement.ownError, Statement.selects, Delete.render_eq]
  cases hresolve : s.target.resolve with
  | error e =>
    rw [Target.resolve_eq_error hresolve]
    exact .throw e
  | ok table =>
    rw [Target.ownError_of_resolve hresolve]
    exact hclauses.map fun _ => .pure _

namespace Statement

variable {name? : Option String} {s : Statement}

/-- Whatever callers put together ends with its first error. -/
theorem ends_render (h : s.Assembled name?) : Ends s.render s.firstError := by
  cases h with
  | @select q hq => exact q.ends_render (Select.callsFine_of_assembled hq)
  | insert table calls => exact Insert.ends_render _
  | update table hcalls => exact Update.ends_render _ (Update.kept_ofCalls table hcalls).clauses
  | delete table hcalls => exact Delete.ends_render _ (Delete.kept_ofCalls table hcalls).clauses

/-- Nothing is wrong with a statement by itself. -/
theorem ownError_eq_none (h : s.Assembled name?) (hquery : ∀ q, s ≠ .select q) :
    s.ownError = none ↔
      s.recorded = none ∧ (∀ name ∈ name?, Text.allBlank name.toList = false) ∧ s.HasValues := by
  cases h with
  | @select q hq => exact absurd rfl (hquery q)
  | insert table calls =>
    have htarget := (Insert.keeps_ofCalls table calls).ownError_eq_none
    simp [ownError, recorded, HasValues, htarget, and_assoc]
  | @update table calls hcalls =>
    have htarget := (Update.kept_ofCalls table hcalls).target.ownError_eq_none
    simp [ownError, recorded, HasValues, htarget, and_assoc]
  | @delete table calls hcalls =>
    have htarget := (Delete.kept_ofCalls table hcalls).target.ownError_eq_none
    simp [ownError, recorded, HasValues, htarget]

/-- There is no first error exactly if nothing is wrong with the statement and its queries. -/
theorem firstError_eq_none (h : s.Assembled name?) :
    s.firstError = none ↔
      s.recorded = none ∧
      (∀ q, s.Embeds q → q.fault = none ∧ q.fields ≠ [] ∧ q.tables ≠ []) ∧
      (∀ name ∈ name?, Text.allBlank name.toList = false) ∧ s.HasValues := by
  have hqueries : SqlAssembly.firstError s.selects = none ↔
      ∀ q, s.Embeds q → q.fault = none ∧ q.fields ≠ [] ∧ q.tables ≠ [] := by
    simp only [SqlAssembly.firstError_eq_none, mem_selects_iff]
  rw [firstError, Option.or_eq_none_iff, hqueries]
  by_cases hquery : ∃ q, s = .select q
  · obtain ⟨q, rfl⟩ := hquery
    -- a query is one of its own queries, so its error has been told with them
    cases h
    constructor
    · rintro ⟨-, hall⟩
      exact ⟨(hall q (.select .refl)).1, hall, nofun, trivial⟩
    · rintro ⟨-, hall, -, -⟩
      exact ⟨rfl, hall⟩
  · rw [ownError_eq_none h fun q heq => hquery ⟨q, heq⟩]
    constructor
    · rintro ⟨⟨hrecorded, hname, hvalues⟩, hall⟩
      exact ⟨hrecorded, hall, hname, hvalues⟩
    · rintro ⟨hrecorded, hall, hname, hvalues⟩
      exact ⟨⟨hrecorded, hname, hvalues⟩, hall⟩

/-- A build fails with the first error and with no other. -/
theorem build_eq_error_iff (h : s.Assembled name?) (e : Error) :
    s.build = .error e ↔ s.firstError = some e := by
  rw [← (ends_render h).error_iff (Allocator.new s.options) e, build]
  rcases s.render.outcome (Allocator.new s.options) with ⟨e' | sql, a⟩
  · exact ⟨fun heq => by cases heq; rfl, fun heq => by cases heq; rfl⟩
  · exact ⟨nofun, nofun⟩

/-- A statement put together by calls fails with the first error, in this order: what was recorded
for it, missing entries or a missing table, missing values, and the errors of the queries in it, in
the order of rendering and each of them told in the same way.  It is built exactly if nothing was
recorded for it or for a query in it, every query has an entry and a table, the name of its own
table is not blank, and an INSERT or UPDATE has a value. -/
theorem build_ends (h : s.Assembled name?) :
    (∀ e, s.build = .error e ↔ s.firstError = some e) ∧
    ((∃ q, s.build = .ok q) ↔
      s.recorded = none ∧
      (∀ q, s.Embeds q → q.fault = none ∧ q.fields ≠ [] ∧ q.tables ≠ []) ∧
      (∀ name ∈ name?, Text.allBlank name.toList = false) ∧ s.HasValues) := by
  refine ⟨build_eq_error_iff h, ?_⟩
  rw [← firstError_eq_none h]
  cases hbuild : s.build with
  | ok q =>
    -- a statement that is built has no first error
    refine ⟨fun _ => ?_, fun _ => ⟨q, rfl⟩⟩
    by_contra hsome
    obtain ⟨e, he⟩ := Option.ne_none_iff_exists'.mp hsome
    have herror := (build_eq_error_iff h e).mpr he
    rw [hbuild] at herror
    cases herror
  | error e =>
    have he := (build_eq_error_iff h e).mp hbuild
    rw [he]
    exact ⟨fun ⟨_, hq⟩ => (nomatch hq), nofun⟩

/-- A query without a table inside of a query, in front of one with an error of its own; and an
INSERT with which nothing is wrong. -/
theorem build_ends_nested :
    let inner : Select := Select.field {} (.column "id")
    let outer : Select := ((Select.field {} (.column "x")).field (.subquery inner)).table "t"
    let faulty : Select := Select.table {} "a b c"
    let s : Statement := .update (.ofCalls "users" [.set "a" .null,
      .filters [.raw "1 = 1", .test (.select outer) "=" (some (.value .null)),
        .test (.select faulty) "=" (some (.value .null))]])
    s.build = .error .tableMissing ∧
    ∃ q, (Statement.insert (.ofCalls "users" [.value "a" .null])).build = .ok q := by
  intro inner outer faulty s
  have hinner : inner.Assembled := .field .new (.column "id")
  have houter : outer.Assembled :=
    .table "t" (.field (.field .new (.column "x")) (.subquery hinner))
  have hfaulty : faulty.Assembled := .table "a b c" .new
  have htest {q : Select} (hq : q.Assembled) :
      (Filter.test (.select q) "=" (some (.value .null))).Assembled := by
    refine .test "=" (.select hq) fun o ho => ?_
    obtain rfl := Option.some.inj ho
    exact .value .null
  have hs : s.Assembled (some "users") := by
    refine .update "users" fun call hcall => ?_
    rcases List.mem_cons.mp hcall with rfl | hcall
    · exact trivial
    · obtain rfl := List.mem_singleton.mp hcall
      exact List.forall_mem_cons.mpr ⟨.raw "1 = 1",
        List.forall_mem_cons.mpr ⟨htest houter, List.forall_mem_singleton.mpr (htest hfaulty)⟩⟩
  refine ⟨((build_ends hs).1 .tableMissing).mpr (by decide +kernel), ?_⟩
  refine (build_ends (.insert "users" [.value "a" .null])).2.mpr ⟨?_, nofun, ?_, ?_⟩
  · show (Insert.ofCalls "users" [.value "a" .null]).target.fault = none
    decide +kernel
  · intro name hname
    obtain rfl := Option.some.inj hname
    decide
  · show (Insert.ofCalls "users" [.value "a" .null]).values ≠ []
    decide +kernel

end Statement

end SqlAssembly

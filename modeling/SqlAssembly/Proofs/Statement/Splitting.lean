import SqlAssembly.Proofs.Query.Joined
import SqlAssembly.Proofs.Statement.CallOrder

namespace SqlAssembly

/-!
# Dividing filters among calls

Filters may be given together, one by one or in blocks, and those of a query may be checked before:
the statement is built in the same way, or fails with the same error.

* `Cut` — a list in consecutive blocks, one for each call;
* `Builder.Asks` — a call that asks for certain filters;
* `Builder.SameButClauses` — statements that differ only in how their conditions are divided
  among clauses, which `Builder.build_of_sameButClauses` shows to be built in the same way;
* `Builder.foldl_after_of_cut` — calls that ask for the same filters lead to such statements;
* `Builder.build_of_cut` — they lead to the same build, with whatever calls around them.
-/

/-! ### Blocks -/

/-- A list in consecutive blocks, one for each call. -/
inductive Cut {γ α : Type} (asks : γ → List α → Prop) : List γ → List α → Prop
  | nil : Cut asks [] []
  | cons {c : γ} {calls : List γ} {block rest : List α} (hc : asks c block)
    (hrest : Cut asks calls rest) : Cut asks (c :: calls) (block ++ rest)

namespace Cut

variable {γ α : Type} {asks : γ → List α → Prop} {c : γ} {calls others : List γ} {xs ys : List α}

/-- A list as one block. -/
theorem whole (hc : asks c xs) : Cut asks [c] xs := by
  have h := Cut.cons hc .nil
  rwa [List.append_nil] at h

/-- A list as the blocks of one part and then those of the other. -/
theorem append (h : Cut asks calls xs) (hothers : Cut asks others ys) :
    Cut asks (calls ++ others) (xs ++ ys) := by
  induction h with
  | nil => exact hothers
  | cons hc _ ih =>
    rw [List.append_assoc]
    exact .cons hc ih

/-- A list of single members. -/
theorem singles {β : Type} {bs : List β} {call : β → γ} {item : β → α}
    (h : ∀ b ∈ bs, asks (call b) [item b]) : Cut asks (bs.map call) (bs.map item) := by
  induction bs with
  | nil => exact .nil
  | cons b bs ih =>
    rw [List.forall_mem_cons] at h
    exact .cons h.1 (ih h.2)

/-- Every call has a block. -/
theorem exists_of_mem (h : Cut asks calls xs) (hc : c ∈ calls) : ∃ block, asks c block := by
  induction h with
  | nil => cases hc
  | cons hfirst _ ih =>
    rcases List.mem_cons.mp hc with rfl | hc
    · exact ⟨_, hfirst⟩
    · exact ih hc

end Cut

/-- The conditions of filters that are given in two parts. -/
theorem Condition.classifyAll_append {fs gs : List Filter} {cs ds : List Condition}
    (hfs : classifyAll fs = .ok cs) (hgs : classifyAll gs = .ok ds) :
    classifyAll (fs ++ gs) = .ok (cs ++ ds) := by
  rw [classifyAll_eq_ok_iff] at hfs hgs ⊢
  exact List.rel_append hfs hgs

/-- A clause holds what its filters became, in order. -/
theorem WhereClause.classifyAll_of_ofFilters {fs : List Filter} {w : WhereClause}
    (h : ofFilters fs = .ok w) : Condition.classifyAll fs = .ok w.conditions := by
  obtain ⟨cs, hcs, hw⟩ := bind_eq_ok.mp h
  cases cs with
  | nil => cases hw
  | cons c rest =>
    cases hw
    exact hcs

/-! ### Statements and their clauses -/

/-- How the conditions of a query are divided among clauses does not matter. -/
theorem Select.render_clauses_congr (q : Select) {clauses : List WhereClause}
    (h : clauses.flatMap WhereClause.conditions = q.clauses.flatMap WhereClause.conditions) :
    { q with clauses }.render = q.render := by
  obtain ⟨fields, tables, joins, clauses', order, limit, offset, alias?, options, fault⟩ := q
  cases fault with
  | some e => rw [render_of_fault rfl, render_of_fault rfl]
  | none =>
    rw [render_eq rfl, render_eq rfl]
    dsimp only
    split
    · rfl
    split
    · rfl
    -- the entries are rendered first, and then only the suffix is left
    exact bind_congr fun texts => WhereClause.bind_renderAll_congr h fun suffix =>
      pure ("SELECT " ++ ", ".intercalate texts ++ " FROM " ++ ", ".intercalate tables
        ++ String.join (joins.map fun j => " " ++ j.sql) ++ suffix ++ tail order limit offset)

theorem Update.render_clauses_congr (s : Update) {clauses : List WhereClause}
    (h : clauses.flatMap WhereClause.conditions = s.clauses.flatMap WhereClause.conditions) :
    { s with clauses }.render = s.render := by
  obtain ⟨target, sets, clauses', options⟩ := s
  rw [render_eq, render_eq]
  dsimp only
  split
  · rfl
  next table _ =>
  split
  · rfl
  exact bind_congr fun names => WhereClause.bind_renderAll_congr h fun suffix =>
    pure ("UPDATE " ++ table ++ " SET "
      ++ ", ".intercalate (((sets.map (·.1)).zip names).map fun p => p.1 ++ " = " ++ p.2) ++ suffix)

theorem Delete.render_clauses_congr (s : Delete) {clauses : List WhereClause}
    (h : clauses.flatMap WhereClause.conditions = s.clauses.flatMap WhereClause.conditions) :
    { s with clauses }.render = s.render :=
  bind_congr fun table => WhereClause.bind_renderAll_congr h fun suffix =>
    pure ("DELETE FROM " ++ table ++ suffix)

namespace Builder

/-- A statement with one of its own parts put in is the same. -/
theorem put_part {b : Builder} {k : CallKind} (s : b.State) : b.put k (b.part k s) s = s := by
  cases b <;> cases s <;> cases k <;> rfl

/-! ### Calls that ask for filters -/

/-- A call that asks for certain filters, at least one.  On a query a filter may have become a
condition before. -/
inductive Asks : (b : Builder) → b.Call → List Filter → Prop
  | select {fs : List Filter} (hfs : fs ≠ []) : Asks .select (Select.Call.filters fs) fs
  | checked {f : Filter} {c : Condition} (hf : Condition.classify f = .ok c) :
    Asks .select (Select.Call.condition c) [f]
  | update {fs : List Filter} (hfs : fs ≠ []) : Asks .update (Update.Call.filters fs) fs
  | delete {fs : List Filter} (hfs : fs ≠ []) : Asks .delete (Delete.Call.filters fs) fs

variable {b : Builder} {c : b.Call} {fs : List Filter}

namespace Asks

/-- A call that asks for filters is about conditions. -/
theorem kind (h : b.Asks c fs) : b.kind c = .condition := by
  cases h <;> rfl

/-- What is wrong with the call is what is wrong with the first filter that is refused. -/
theorem error? (h : b.Asks c fs) :
    b.error? c = fs.findSome? fun f => failureOf (Condition.classify f) := by
  cases h with
  | select hfs | update hfs | delete hfs => exact if_neg hfs
  | checked hf =>
    show none = _
    rw [List.findSome?_singleton, hf]
    rfl

end Asks

/-- The first error of calls that ask for filters is that of the filters one by one. -/
theorem error?_of_cut {calls : List b.Call} (h : Cut b.Asks calls fs) :
    calls.findSome? b.error? = fs.findSome? fun f => failureOf (Condition.classify f) := by
  induction h with
  | nil => rfl
  | cons hc _ ih =>
    rw [List.findSome?_cons, hc.error?, ih, List.findSome?_append]
    cases List.findSome? _ _ <;> rfl

/-! ### Conditions of a statement -/

/-- All conditions of a statement in order, whatever clauses they are in. -/
def conditions (b : Builder) (s : b.State) : List Condition :=
  (b.part .condition s).flatMap WhereClause.conditions

/-- A call about conditions adds a clause, which holds what became of the filters that it asks
for. -/
theorem exists_clause (h : b.error? c = none) (hk : b.kind c = .condition) :
    ∃ w : WhereClause, (∀ fs, b.Asks c fs → Condition.classifyAll fs = .ok w.conditions) ∧
      ∀ s, b.part .condition (b.after s c) = b.part .condition s ++ [w] := by
  -- filters in which nothing is wrong become a clause
  have hclause : ∀ fs, Filter.errorOfAll fs = none → ∃ w, WhereClause.ofFilters fs = .ok w :=
    fun fs hfs => failureOf_eq_none.mp ((Filter.failureOf_ofFilters fs).trans hfs)
  cases b <;> cases c <;> try cases hk
  case select.filters fs | update.filters fs | delete.filters fs =>
    obtain ⟨w, hw⟩ := hclause fs h
    refine ⟨w, ?_, fun s => ?_⟩
    · rintro _ ⟨⟩
      exact WhereClause.classifyAll_of_ofFilters hw
    · rw [after_eq]
      show part _ .condition (Change.apply _ s ((WhereClause.ofFilters fs).map _)) = _
      rw [hw]
      rfl
  case select.condition c =>
    refine ⟨⟨c, []⟩, ?_, fun s => rfl⟩
    rintro _ ⟨⟩
    next f hf =>
    exact bind_eq_ok.mpr ⟨c, hf, rfl⟩

/-- Whatever a call adds to the conditions, it adds it behind all that there are. -/
theorem exists_conditions (h : b.error? c = none) :
    ∃ cs : List Condition, (∀ fs, b.Asks c fs → Condition.classifyAll fs = .ok cs) ∧
      ∀ s, b.conditions (b.after s c) = b.conditions s ++ cs := by
  by_cases hk : b.kind c = .condition
  · obtain ⟨w, hfs, hw⟩ := exists_clause h hk
    refine ⟨w.conditions, hfs, fun s => ?_⟩
    rw [conditions, hw, List.flatMap_append, List.flatMap_singleton]
    rfl
  · refine ⟨[], fun fs hfs => absurd hfs.kind hk, fun s => ?_⟩
    rw [conditions, part_after_of_ne h hk, List.append_nil]
    rfl

/-- Calls that ask for filters add their conditions. -/
theorem conditions_foldl_of_cut {calls : List b.Call} (hcut : Cut b.Asks calls fs)
    (h : ∀ c ∈ calls, b.error? c = none) :
    ∃ cs, Condition.classifyAll fs = .ok cs ∧
      ∀ s, b.conditions (calls.foldl b.after s) = b.conditions s ++ cs := by
  induction hcut with
  | nil => exact ⟨[], rfl, fun s => (List.append_nil _).symm⟩
  | cons hc _ ih =>
    rw [List.forall_mem_cons] at h
    obtain ⟨cs, hcs, hfirst⟩ := exists_conditions h.1
    obtain ⟨ds, hds, hrest⟩ := ih h.2
    refine ⟨cs ++ ds, Condition.classifyAll_append (hcs _ hc) hds, fun s => ?_⟩
    rw [List.foldl_cons, hrest, hfirst, List.append_assoc]

/-! ### Statements with the same conditions -/

/-- Statements with the same conditions, which may be divided among clauses in different ways, and
with all else the same. -/
structure SameButClauses (b : Builder) (s s' : b.State) : Prop where
  target : b.target s = b.target s'
  parts : ∀ k, k ≠ .condition → b.part k s = b.part k s'
  conditions : b.conditions s = b.conditions s'

/-- Calls with nothing wrong keep statements the same. -/
theorem SameButClauses.after {s s' : b.State} (hs : b.SameButClauses s s')
    (h : b.error? c = none) : b.SameButClauses (b.after s c) (b.after s' c) := by
  refine ⟨?_, fun k hk => ?_, ?_⟩
  · rw [target_after h, target_after h, hs.target]
  · by_cases hc : b.kind c = k
    · obtain rfl := hc
      exact part_after h (hs.parts _ hk)
    · rw [part_after_of_ne h hc, part_after_of_ne h hc, hs.parts k hk]
  · obtain ⟨cs, -, hcs⟩ := exists_conditions h
    rw [hcs, hcs, hs.conditions]

/-- Calls that do not fail keep the difference to the clauses. -/
theorem SameButClauses.foldl_after {calls : List b.Call} (h : ∀ c ∈ calls, b.error? c = none)
    {s s' : b.State} (hs : b.SameButClauses s s') :
    b.SameButClauses (calls.foldl b.after s) (calls.foldl b.after s') := by
  induction calls generalizing s s' with
  | nil => exact hs
  | cons c calls ih =>
    rw [List.forall_mem_cons] at h
    exact ih h.2 (hs.after h.1)

/-- Calls that ask for the same filters lead to the same statement but for its clauses. -/
theorem sameButClauses_of_cut {calls calls' : List b.Call} (hcut : Cut b.Asks calls fs)
    (hcut' : Cut b.Asks calls' fs) (h : ∀ c ∈ calls, b.error? c = none)
    (h' : ∀ c ∈ calls', b.error? c = none) (s : b.State) :
    b.SameButClauses (calls.foldl b.after s) (calls'.foldl b.after s) := by
  -- all calls of a cut are about conditions, so no other part is changed
  have hkind : ∀ {calls : List b.Call}, Cut b.Asks calls fs → ∀ c ∈ calls,
      b.kind c = .condition := fun hcut c hc => by
    obtain ⟨block, hblock⟩ := hcut.exists_of_mem hc
    exact hblock.kind
  have hother : ∀ {calls : List b.Call}, Cut b.Asks calls fs → ∀ k, k ≠ .condition →
      calls.filter (fun c => b.kind c = k) = [] := fun hcut k hk => by
    refine List.filter_eq_nil_iff.mpr fun c hc => ?_
    rw [hkind hcut c hc]
    simpa using hk.symm
  refine ⟨?_, fun k hk => ?_, ?_⟩
  · rw [target_foldl_after h, target_foldl_after h']
  · rw [part_foldl_after h (rfl : b.part k s = _), part_foldl_after h' (rfl : b.part k s = _),
      hother hcut k hk, hother hcut' k hk]
  · obtain ⟨cs, hcs, hconditions⟩ := conditions_foldl_of_cut hcut h
    obtain ⟨cs', hcs', hconditions'⟩ := conditions_foldl_of_cut hcut' h'
    obtain rfl : cs = cs' := Except.ok.inj (hcs.symm.trans hcs')
    rw [hconditions, hconditions']

/-- A statement is rendered by its conditions, however they are divided among clauses. -/
theorem render_put_clauses {s : b.State} {clauses : List WhereClause}
    (h : clauses.flatMap WhereClause.conditions = b.conditions s) :
    (b.statement (b.put .condition clauses s)).render = (b.statement s).render := by
  cases b with
  | select => exact Select.render_clauses_congr s h
  | update => exact Update.render_clauses_congr s h
  | delete => exact Delete.render_clauses_congr s h
  | insert => rfl
  | createTable => rfl

/-- Statements that differ in the division among clauses are built in the same way. -/
theorem build_of_sameButClauses {s s' : b.State} (h : b.SameButClauses s s') :
    (b.statement s).build = (b.statement s').build := by
  -- the first statement is the second one with other clauses put in
  have hput : b.put .condition (b.part .condition s) s' = s := by
    refine ext_parts ?_ fun k => ?_
    · rw [target_put, h.target]
    · by_cases hk : k = .condition
      · obtain rfl := hk
        rw [part_put _ s' s, put_part]
      · rw [part_put_of_ne (Ne.symm hk), h.parts k hk]
  have hrender := render_put_clauses h.conditions
  have hoptions : (b.statement (b.put .condition (b.part .condition s) s')).options
      = (b.statement s').options := by
    cases b <;> rfl
  rw [hput] at hrender hoptions
  rw [Statement.build, Statement.build, hrender, hoptions]

/-! ### Builds -/

/-- A statement is built in the same way, or fails with the same error, whether filters are given
together, one by one or in blocks, and whatever calls are made before and after. -/
theorem build_of_cut {calls calls' : List b.Call} (hcut : Cut b.Asks calls fs)
    (hcut' : Cut b.Asks calls' fs) (x : b.Start) (before after : List b.Call) :
    (b.ofCalls x (before ++ calls ++ after)).build
      = (b.ofCalls x (before ++ calls' ++ after)).build := by
  have herror : (before ++ calls ++ after).findSome? b.error?
      = (before ++ calls' ++ after).findSome? b.error? := by
    simp only [List.findSome?_append, error?_of_cut hcut, error?_of_cut hcut']
  cases h : (b.startError? x).or ((before ++ calls ++ after).findSome? b.error?) with
  | some e =>
    -- a build fails with the first error of all, which is the same for both
    have hfault : ∀ calls,
        calls.findSome? b.error? = (before ++ calls' ++ after).findSome? b.error? →
        (b.ofCalls x calls).build = .error e := fun calls hcalls => by
      refine build_of_fault ?_
      rw [fault_foldl_after, fault_start, hcalls, ← herror, h]
    rw [hfault _ herror, hfault _ rfl]
  | none =>
    obtain ⟨-, hnone⟩ := Option.or_eq_none_iff.mp h
    have hnone' := herror ▸ hnone
    rw [List.findSome?_eq_none_iff] at hnone hnone'
    simp only [List.mem_append, or_imp, forall_and] at hnone hnone'
    obtain ⟨⟨hbefore, hcalls⟩, hafter⟩ := hnone
    -- the calls in front lead to one statement, and those behind keep the difference small
    have hmiddle := sameButClauses_of_cut hcut hcut' hcalls hnone'.1.2
      (before.foldl b.after (b.start x))
    rw [ofCalls, ofCalls, List.foldl_append, List.foldl_append, List.foldl_append,
      List.foldl_append]
    exact build_of_sameButClauses (hmiddle.foldl_after hafter)

/-- A group of nothing, a fragment and a test, together and in three calls, one of them with a
condition that was checked before; and a filter that is refused among others. -/
theorem build_of_cut_mixed :
    let nothing : Filter := .group .or [.group .and []]
    let fragment : Filter := .raw "a = 1"
    let test : Filter := .test (.value (.text "b")) "=" (some (.value (.int 2)))
    let bad : Filter := .test (.value (.text "1bad")) "=" (some (.value .null))
    let before : List Select.Call := [.field (.column "id"), .table "t"]
    let blocks : List Select.Call :=
      [.filters [nothing], .condition (.raw "a = 1"), .filters [test]]
    let single (f : Filter) : Select.Call := .filters [f]
    let failing : List Filter := [nothing, bad, fragment, bad]
    Cut (Asks .select) [.filters [nothing, fragment, test]] [nothing, fragment, test] ∧
    Cut (Asks .select) blocks [nothing, fragment, test] ∧
    (ofCalls .select () (before ++ blocks ++ [.limit 1])).build
      = .ok ⟨"SELECT \"id\" FROM \"t\" WHERE a = 1 AND \"b\" = $0 LIMIT 1", ⟨[("$0", .int 2)]⟩⟩ ∧
    (ofCalls .select () (before ++ [.filters [nothing, fragment, test]] ++ [.limit 1])).build
      = (ofCalls .select () (before ++ blocks ++ [.limit 1])).build ∧
    (ofCalls .select () (before ++ [.filters failing] ++ [])).build
      = (ofCalls .select () (before ++ failing.map single ++ [])).build := by
  intro nothing fragment test bad before blocks single failing
  have hwhole : Cut (Asks .select) [.filters [nothing, fragment, test]] [nothing, fragment, test] :=
    .whole (.select (List.cons_ne_nil _ _))
  have hblocks : Cut (Asks .select) blocks [nothing, fragment, test] :=
    .cons (Asks.select (List.cons_ne_nil nothing []))
      (.cons (Asks.checked (f := fragment) rfl) (.whole (Asks.select (List.cons_ne_nil test []))))
  have hfailing : Cut (Asks .select) [.filters failing] failing :=
    .whole (.select (List.cons_ne_nil _ _))
  have hsingles : Cut (Asks .select) (failing.map single) (failing.map id) :=
    .singles fun f _ => .select (List.cons_ne_nil f [])
  rw [List.map_id] at hsingles
  refine ⟨hwhole, hblocks, ?_, ?_, ?_⟩
  · decide +kernel
  · exact build_of_cut hwhole hblocks () before _
  · exact build_of_cut hfailing hsingles () before _

end Builder

end SqlAssembly

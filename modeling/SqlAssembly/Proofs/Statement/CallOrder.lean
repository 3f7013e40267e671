import SqlAssembly.Proofs.Query.Alike
import SqlAssembly.Proofs.Statement.Alike
import SqlAssembly.Proofs.Statement.Builder
import SqlAssembly.Proofs.Statement.Placeholders

namespace SqlAssembly

/-!
# The order of calls

Of the calls on a statement the first one with something wrong with it gives the error of the build.
A call that fails changes nothing else.  If no call fails, only the order of calls that are about
the same part matters, and where the part is overwritten only the last one of them does.

* `Reordered` — the same calls, in order where they are about the same part;
* `Builder.foldl_after_of_reordered` — they lead to the same statement;
* `Builder.build_ofCalls` — how chains of calls end.
-/

namespace Builder

variable {b : Builder} {k : CallKind}

/-! ### Calls that fail -/

/-- A call that adds one thing and fails leaves the statement as it was, with the error. -/
theorem after_of_error {c : b.Call} {e : Error} (hsingle : (b.changes c).length = 1)
    (h : b.error? c = some e) (s : b.State) : b.after s c = b.record s e := by
  obtain ⟨x, hx⟩ := List.length_eq_one_iff.mp hsingle
  rw [error?_eq, hx, Change.findSome?_singleton] at h
  rw [after_eq, hx, failureOf_eq_some.mp h]
  rfl

/-- A table is recorded with what is wrong with its name. -/
theorem fault_ofName (name : String) : (Target.ofName name).fault = tableError? name := by
  unfold Target.ofName tableError?
  split
  · rfl
  · cases QualifiedName.quoteTable name <;> rfl

/-- A statement begins with what is wrong with its table and its first columns. -/
theorem fault_start (x : b.Start) : (b.target (b.start x)).fault = b.startError? x := by
  cases b with
  | select => rfl
  | insert => exact fault_ofName x
  | update => exact fault_ofName x
  | delete => exact fault_ofName x
  | createTable =>
    obtain ⟨table, columns⟩ := x
    -- the first columns of a CREATE TABLE are calls like any other
    have hfirst : CreateTable.of table columns
        = (columns.map fun c => CreateTable.Call.column c.1 c.2).foldl CreateTable.after
          { target := .ofName table } := by
      rw [List.foldl_map]
      rfl
    have hfault := fault_foldl_after (b := .createTable) { target := .ofName table }
      (columns.map fun c => CreateTable.Call.column c.1 c.2)
    rw [List.findSome?_map] at hfault
    show (CreateTable.of table columns).target.fault = (tableError? table).or _
    rw [hfirst, ← fault_ofName]
    exact hfault

/-- The error of a statement is the first thing that its build looks at. -/
theorem build_of_fault {s : b.State} {e : Error} (h : (b.target s).fault = some e) :
    (b.statement s).build = .error e := by
  -- every statement with a table resolves it before anything else
  have hresolve : ∀ t : Target, t.fault = some e → t.resolve = .error e := by
    rintro ⟨table, fault⟩ rfl
    rfl
  have hrender : (b.statement s).render = throw e := by
    cases b with
    | select => exact Select.render_of_fault h
    | insert => exact (Insert.render_eq s).trans (by rw [hresolve (Insert.target s) h])
    | update => exact (Update.render_eq s).trans (by rw [hresolve (Update.target s) h])
    | delete => exact (Delete.render_eq s).trans (by rw [hresolve (Delete.target s) h])
    | createTable => exact (CreateTable.render_eq s).trans (by rw [hresolve (CreateTable.target s) h])
  rw [Statement.build, hrender, Render.outcome_throw]

/-! ### Calls that do not fail -/

/-- Nothing is wrong with a call, so all its changes are made. -/
theorem change_of_fine {c : b.Call} (h : b.error? c = none) {x : Change b.State}
    (hx : x ∈ b.changes c) : ∃ f, x = .ok f ∧ b.Changes (b.kind c) f := by
  rw [error?_eq, List.findSome?_eq_none_iff] at h
  obtain ⟨f, rfl⟩ := failureOf_eq_none.mp (h x hx)
  exact ⟨f, rfl, changes_of_mem hx⟩

/-- A call that does not fail changes neither table nor error. -/
theorem target_after {c : b.Call} (h : b.error? c = none) (s : b.State) :
    b.target (b.after s c) = b.target s := by
  rw [after_eq]
  refine foldl_invariant (P := fun t => b.target t = b.target s) rfl fun t x hx ht => ?_
  obtain ⟨f, rfl, hf⟩ := change_of_fine h hx
  exact (hf.target t).trans ht

/-- A call leaves the parts that it is not about. -/
theorem part_after_of_ne {c : b.Call} (h : b.error? c = none) (hk : b.kind c ≠ k) (s : b.State) :
    b.part k (b.after s c) = b.part k s := by
  rw [after_eq]
  refine foldl_invariant (P := fun t => b.part k t = b.part k s) rfl fun t x hx ht => ?_
  obtain ⟨f, rfl, hf⟩ := change_of_fine h hx
  exact (hf.other hk t).trans ht

/-- What becomes of the part that a call is about depends on nothing else. -/
theorem part_after {c : b.Call} (h : b.error? c = none) {s s' : b.State}
    (hs : b.part (b.kind c) s = b.part (b.kind c) s') :
    b.part (b.kind c) (b.after s c) = b.part (b.kind c) (b.after s' c) := by
  have hchange := fun x => change_of_fine (x := x) h
  rw [after_eq, after_eq]
  generalize b.changes c = changes at hchange
  induction changes generalizing s s' with
  | nil => exact hs
  | cons x rest ih =>
    obtain ⟨f, rfl, hf⟩ := hchange x List.mem_cons_self
    exact ih (hf.own hs) fun y hy => hchange y (List.mem_cons_of_mem _ hy)

/-- A call on a part that is overwritten adds one thing. -/
theorem changes_of_overwrites {c : b.Call} (h : (b.kind c).overwrites) :
    ∃ x, b.changes c = [x] := by
  cases b <;> cases c <;> first | exact ⟨_, rfl⟩ | cases h

/-- Where a part is overwritten it does not matter what was there. -/
theorem part_after_of_overwrites {c : b.Call} (h : b.error? c = none)
    (hk : (b.kind c).overwrites) (s s' : b.State) :
    b.part (b.kind c) (b.after s c) = b.part (b.kind c) (b.after s' c) := by
  obtain ⟨x, hx⟩ := changes_of_overwrites hk
  obtain ⟨f, rfl, hf⟩ := change_of_fine h (x := x) (by rw [hx]; exact List.mem_singleton_self x)
  rw [after_eq, after_eq, hx]
  exact hf.overwritten hk s s'

end Builder

/-! ### Chains of calls -/

/-- The same calls in another order: those that add to the same part are in the same order, and of
those that overwrite a part the last one is the same. -/
structure Reordered {γ : Type} (kind : γ → CallKind) (calls calls' : List γ) : Prop where
  perm : calls'.Perm calls
  inOrder : ∀ k, k.overwrites = false →
    calls'.filter (fun c => kind c = k) = calls.filter (fun c => kind c = k)
  last : ∀ k, k.overwrites = true →
    (calls'.filter fun c => kind c = k).getLast? = (calls.filter fun c => kind c = k).getLast?

namespace Builder

variable {b : Builder} {k : CallKind} {calls calls' : List b.Call}

/-- Calls that do not fail change neither table nor error. -/
theorem target_foldl_after (h : ∀ c ∈ calls, b.error? c = none) (s : b.State) :
    b.target (calls.foldl b.after s) = b.target s :=
  foldl_invariant (P := fun t => b.target t = b.target s) rfl fun t c hc ht =>
    (target_after (h c hc) t).trans ht

/-- What becomes of a part depends on the calls that are about it. -/
theorem part_foldl_after (h : ∀ c ∈ calls, b.error? c = none) {s s' : b.State}
    (hs : b.part k s = b.part k s') :
    b.part k (calls.foldl b.after s)
      = b.part k ((calls.filter fun c => b.kind c = k).foldl b.after s') := by
  induction calls generalizing s s' with
  | nil => exact hs
  | cons c rest ih =>
    have hrest := fun d hd => h d (List.mem_cons_of_mem c hd)
    have hfine := h c List.mem_cons_self
    -- a call about another part leaves this one as it is
    by_cases hk : b.kind c = k
    · obtain rfl := hk
      rw [List.filter_cons, if_pos (decide_eq_true rfl)]
      exact ih hrest (part_after hfine hs)
    · rw [List.filter_cons, if_neg (mt of_decide_eq_true hk)]
      exact ih hrest ((part_after_of_ne hfine hk s).trans hs)

/-- Where a part is overwritten the last call counts. -/
theorem part_foldl_after_of_getLast? (hk : k.overwrites)
    (h : ∀ c ∈ calls, b.error? c = none ∧ b.kind c = k)
    (h' : ∀ c ∈ calls', b.error? c = none ∧ b.kind c = k)
    (hlast : calls'.getLast? = calls.getLast?) (s : b.State) :
    b.part k (calls'.foldl b.after s) = b.part k (calls.foldl b.after s) := by
  -- both chains end in the same call, or there is none
  rcases calls.eq_nil_or_concat' with rfl | ⟨before, c, rfl⟩
  · obtain rfl := List.getLast?_eq_none_iff.mp hlast
    rfl
  · rcases calls'.eq_nil_or_concat' with rfl | ⟨before', c', rfl⟩
    · simp at hlast
    · obtain rfl : c' = c := by simpa using hlast
      obtain ⟨hfine, rfl⟩ := h c' (by simp)
      rw [List.foldl_concat, List.foldl_concat]
      exact part_after_of_overwrites hfine hk _ _

/-- Calls that do not fail lead to the same statement in every order that keeps the order where it
matters. -/
theorem foldl_after_of_reordered (h : ∀ c ∈ calls, b.error? c = none)
    (hreordered : Reordered b.kind calls calls') (s : b.State) :
    calls'.foldl b.after s = calls.foldl b.after s := by
  have h' : ∀ c ∈ calls', b.error? c = none := fun c hc =>
    h c (hreordered.perm.mem_iff.mp hc)
  -- a statement is its target and its parts, and each part is followed by itself
  refine ext_parts ?_ fun k => ?_
  · rw [target_foldl_after h', target_foldl_after h]
  rw [part_foldl_after h rfl, part_foldl_after h' rfl]
  cases hk : k.overwrites with
  | false => rw [hreordered.inOrder k hk]
  | true =>
    refine part_foldl_after_of_getLast? hk ?_ ?_ (hreordered.last k hk) s
    · intro c hc
      obtain ⟨hmem, hkind⟩ := List.mem_filter.mp hc
      exact ⟨h c hmem, of_decide_eq_true hkind⟩
    · intro c hc
      obtain ⟨hmem, hkind⟩ := List.mem_filter.mp hc
      exact ⟨h' c hmem, of_decide_eq_true hkind⟩

/-- A statement that is put together by calls is not built if there is something wrong with its
table or with a call, and the error is the first one that was made, whatever else is wrong with the
statement.  A call that adds one thing and fails leaves all parts of the statement as they were.  If
no call fails, the calls may as well be made in another order, if only those about the same part
stay in order.

Calls are judged by their own arguments, where a query is not looked into before it is rendered. -/
theorem build_ofCalls (b : Builder) (x : b.Start) (calls : List b.Call) :
    (∀ e, (b.startError? x).or (calls.findSome? b.error?) = some e →
      (b.ofCalls x calls).build = .error e) ∧
    (∀ s c e, b.error? c = some e → (b.changes c).length = 1 →
      b.after s c = b.record s e ∧ ∀ k, b.part k (b.after s c) = b.part k s) ∧
    ((∀ c ∈ calls, b.error? c = none) → ∀ calls', Reordered b.kind calls calls' →
      (b.ofCalls x calls').build = (b.ofCalls x calls).build) := by
  refine ⟨?_, ?_, ?_⟩
  · intro e he
    refine build_of_fault ?_
    rw [fault_foldl_after, fault_start, he]
  · intro s c e he hsingle
    have hafter := after_of_error hsingle he s
    refine ⟨hafter, fun k => ?_⟩
    rw [hafter, part_record]
  · intro h calls' hreordered
    rw [ofCalls, ofCalls, foldl_after_of_reordered h hreordered]

/-- Two calls that fail, the first of them with a filter among others, and no table either; and four
calls in two orders. -/
theorem build_ofCalls_mixed :
    let bad : Filter := .test (.value (.text "1bad")) "=" (some (.value .null))
    let filters : Select.Call := .filters [.raw "a", bad]
    let failing : List Select.Call := [.field (.column "id"), filters, .orderBy "a b c" .asc]
    let calls : List Select.Call :=
      [.field (.column "id"), .limit 1, .table "t", .limit 2]
    let calls' : List Select.Call :=
      [.limit 1, .field (.column "id"), .table "t", .limit 2]
    (ofCalls .select () failing).build = .error (.columnShape "1bad") ∧
    (∀ q : Select, (q.after filters).clauses = q.clauses) ∧
    (∀ c ∈ calls, c.error? = none) ∧
    Reordered Select.Call.kind calls calls' ∧
    (ofCalls .select () calls').build = (ofCalls .select () calls).build := by
  intro bad filters failing calls calls'
  have hfilters : filters.error? = some (.columnShape "1bad") := by decide +kernel
  have hfailing : (startError? .select ()).or (failing.findSome? (error? .select))
      = some (.columnShape "1bad") := by decide +kernel
  have hfine : ∀ c ∈ calls, c.error? = none := by
    have hfirst : failureOf (quoteColumn "id") = none := by decide +kernel
    have htable : failureOf (QualifiedName.quoteTable "t") = none := by decide +kernel
    simp only [calls, List.forall_mem_cons]
    exact ⟨hfirst, rfl, htable, rfl, List.forall_mem_nil _⟩
  have hreordered : Reordered Select.Call.kind calls calls' :=
    ⟨.swap _ _ _, fun k _ => by cases k <;> rfl, fun k _ => by cases k <;> rfl⟩
  refine ⟨?_, fun q => ?_, hfine, hreordered, ?_⟩
  · exact (build_ofCalls .select () failing).1 _ hfailing
  · exact ((build_ofCalls .select () failing).2.1 q filters _ hfilters rfl).2 .condition
  · exact (build_ofCalls .select () calls).2.2 hfine calls' hreordered

end Builder

end SqlAssembly

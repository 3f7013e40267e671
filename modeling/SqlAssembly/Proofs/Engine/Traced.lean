import SqlAssembly.Engine.Hooked
import SqlAssembly.Proofs.Hook.Traced
import SqlAssembly.Proofs.Outcome

namespace SqlAssembly

/-!
# Executions that keep a journal

An engine with hooks works over any surrounding state too.  Made to write into a journal, with its
hooks numbered in the order in which they were added, it still does what it did.

* `Labelled` — a prepared statement with the text that it was prepared from;
* `Engine.traced`, `HookedEngine.traced` — engines that write into the journal;
* `HookedEngine.traced_foldl_addHook` — hooks that are added take the next numbers;
* `HookedEngine.erases_execute` — apart from the journal an execution is what it was;
* `HookedEngine.Executed` — what one execution may leave in the journal and of the statement;
* `HookedEngine.executed_execute` — this is what it leaves.
-/

open Traced (Erases erases_pure noting noting_of_eq)

variable {σ π : Type}

/-- A prepared statement with the text that it was prepared from. -/
structure Labelled (π : Type) where
  sql : String
  stmt : π

/-- The engine that writes into the journal what it does. -/
def Engine.traced (e : Engine σ π) : Engine (Traced σ) (Labelled π) where
  prepare sql := do
    let answer ← noting (e.prepare sql) fun answer => .prepared sql (failureOf answer)
    return answer.map (Labelled.mk sql)
  execute c p params := do
    let (result, stmt) ← noting (e.execute c p.stmt params) fun x => .executed p.sql c params x.1
    return (result, { p with stmt })

/-- Preparing a text is noted with the error, if it failed. -/
theorem Engine.prepare_traced {e : Engine σ π} {sql : String} {t : Traced σ}
    {answer : Except Error π} {s : σ} (h : e.prepare sql t.state = (answer, s)) :
    e.traced.prepare sql t = (answer.map (Labelled.mk sql),
      ⟨s, t.journal ++ [.prepared sql (failureOf answer)]⟩) :=
  bind_of_eq (noting_of_eq h)

/-- Executing a statement is noted with its text, the parameters and the result. -/
theorem Engine.execute_traced {e : Engine σ π} {c : Call} {p : Labelled π} {params : Params}
    {t : Traced σ} {result : Except Error c.Answer} {stmt : π} {s : σ}
    (h : e.execute c p.stmt params t.state = ((result, stmt), s)) :
    e.traced.execute c p params t = ((result, { p with stmt := stmt }),
      ⟨s, t.journal ++ [.executed p.sql c params result]⟩) :=
  bind_of_eq (noting_of_eq h)

namespace HookedStatement

/-- The text of the statement at hand. -/
def text? (s : HookedStatement π) : Option String := s.prepared.map (·.1)

/-- The statement without its label. -/
def erased (s : HookedStatement (Labelled π)) : HookedStatement π :=
  ⟨s.sql, s.prepared.map fun x => (x.1, x.2.stmt)⟩

/-- The statement at hand was prepared from the text that stands with it. -/
def Honest (s : HookedStatement (Labelled π)) : Prop := ∀ x ∈ s.prepared, x.2.sql = x.1

end HookedStatement

/-- The outcome of a call in short. -/
def Call.outcome (c : Call) : Except Error c.Answer → Outcome
  | .ok answer => c.summary answer
  | .error err => .failure err.message

namespace HookedEngine

/-! ### Engines and their hooks -/

/-- The engine that writes into the journal, with its hooks numbered from 0 on. -/
def traced (e : HookedEngine σ π) : HookedEngine (Traced σ) (Labelled π) where
  inner := e.inner.traced
  hook := e.hook.map (Hook.traced 0)
  tag := e.tag

/-- The number of single hooks. -/
def hookCount (e : HookedEngine σ π) : Nat := (e.hook.map Hook.count).getD 0

/-- An added hook brings its single hooks. -/
theorem hookCount_addHook (e : HookedEngine σ π) (h : Hook σ) :
    (e.addHook h).hookCount = e.hookCount + h.count := by
  cases hhook : e.hook with
  | none => simp [addHook, hookCount, hhook]
  | some first => simp [addHook, hookCount, hhook, Hook.count, Hook.countAll]

/-- A hook that is added takes the next numbers. -/
theorem traced_addHook (e : HookedEngine σ π) (h : Hook σ) :
    (e.addHook h).traced = e.traced.addHook (h.traced e.hookCount) := by
  cases hhook : e.hook with
  | none => simp [addHook, traced, hookCount, hhook]
  | some first => simp [addHook, traced, hookCount, hhook, Hook.traced, Hook.tracedAll]

/-- Hooks that are added one after the other take the next numbers. -/
theorem traced_foldl_addHook (hooks : List (Hook σ)) (e : HookedEngine σ π) :
    (hooks.foldl addHook e).traced
      = (Hook.tracedAll e.hookCount hooks).foldl addHook e.traced := by
  induction hooks generalizing e with
  | nil => rfl
  | cons h rest ih =>
    rw [List.foldl_cons, ih, traced_addHook, hookCount_addHook]
    rfl

/-- Added hooks bring all their single hooks. -/
theorem hookCount_foldl_addHook (hooks : List (Hook σ)) (e : HookedEngine σ π) :
    (hooks.foldl addHook e).hookCount = e.hookCount + Hook.countAll hooks := by
  induction hooks generalizing e with
  | nil => rfl
  | cons h rest ih => rw [List.foldl_cons, ih, hookCount_addHook, Hook.countAll, Nat.add_assoc]

/-! ### The same without the journal -/

/-- Apart from the journal, asking is what it was. -/
theorem erases_ask (e : HookedEngine σ π) (ctx : QueryContext) :
    Erases id (e.traced.ask ctx) (e.ask ctx) := by
  unfold ask traced
  cases e.hook with
  | none => exact erases_pure id _
  | some h => exact (h.erases_before 0 ctx).bind fun verdict => erases_pure id _

/-- Telling is that of the engine, apart from the journal. -/
theorem erases_tell (e : HookedEngine σ π) (ctx : QueryContext) (outcome : Outcome) :
    Erases id (e.traced.tell ctx outcome) (e.tell ctx outcome) := by
  unfold tell traced
  cases e.hook with
  | none => exact erases_pure id _
  | some h => exact h.erases_after 0 ctx outcome

/-- Preparing a text is that of the engine, with the label taken off the statement. -/
theorem erases_prepare (e : HookedEngine σ π) (sql : String) :
    Erases (Except.map Labelled.stmt) (e.traced.inner.prepare sql) (e.inner.prepare sql) := by
  have hlabel : ∀ answer : Except Error π,
      (answer.map (Labelled.mk sql)).map Labelled.stmt = answer := by
    rintro (err | stmt) <;> rfl
  intro t
  show _ = (((e.inner.prepare sql t.state).1.map (Labelled.mk sql)).map Labelled.stmt, _)
  rw [hlabel]
  rfl

/-- Obtaining the statement of a text is that of the engine, be it the one at hand or a new one. -/
theorem erases_obtain (e : HookedEngine σ π) (prepared : Option (String × Labelled π))
    (sql : String) :
    Erases (Except.map Labelled.stmt) (e.traced.obtain prepared sql)
      (e.obtain (prepared.map fun x => (x.1, x.2.stmt)) sql) := by
  cases prepared with
  | none => exact e.erases_prepare sql
  | some x =>
    show Erases _ (if x.1 = sql then _ else _) (if x.1 = sql then _ else _)
    split
    · exact erases_pure (Except.map Labelled.stmt) (.ok x.2)
    · exact e.erases_prepare sql

/-- Apart from the journal an execution is what it was. -/
theorem erases_execute (e : HookedEngine σ π) (c : Call) (s : HookedStatement (Labelled π))
    (params : Params) :
    Erases (fun x => (x.1, x.2.erased)) (e.traced.execute c s params)
      (e.execute c s.erased params) := by
  -- step by step: asking, obtaining the statement, executing it, telling
  refine (e.erases_ask (e.context s.sql params)).bind fun answer => ?_
  cases answer with
  | error reason =>
    exact erases_pure (fun x => (x.1, x.2.erased)) (Except.error (Error.aborted reason), s)
  | ok ctx =>
    refine (e.erases_obtain s.prepared ctx.execSql).bind fun obtained => ?_
    cases obtained with
    | error err =>
      refine (e.erases_tell ctx (.failure err.message)).bind fun _ => ?_
      exact erases_pure (fun x => (x.1, x.2.erased)) (Except.error err, s)
    | ok p =>
      have hexecute : Erases (fun x => (x.1, x.2.stmt)) (e.traced.inner.execute c p params)
          (e.inner.execute c p.stmt params) := fun t => rfl
      refine hexecute.bind fun x => ?_
      refine (e.erases_tell ctx (c.outcome x.1)).bind fun _ => ?_
      exact erases_pure (fun x => (x.1, x.2.erased))
        (x.1, { s with prepared := some (ctx.execSql, x.2) })

/-! ### What an execution leaves -/

variable {e : HookedEngine σ π} {ctx final : QueryContext} {t t₁ t₂ t₃ : σ}
  {s : HookedStatement π} {c : Call} {params : Params}

/-- The statement at hand is taken if it is that of the text. -/
theorem obtain_of_eq (e : HookedEngine σ π) (sql : String) (stmt : π) :
    e.obtain (some (sql, stmt)) sql = pure (.ok stmt) := if_pos rfl

/-- Otherwise the text is prepared. -/
theorem obtain_of_ne {prepared : Option (String × π)} {sql : String}
    (h : prepared.map (·.1) ≠ some sql) : e.obtain prepared sql = e.inner.prepare sql := by
  cases prepared with
  | none => rfl
  | some x => exact if_neg fun hsame => h (congrArg some hsame)

/-- An execution that the hooks refuse ends there. -/
theorem execute_of_ask_error {reason : String}
    (h : e.ask (e.context s.sql params) t = (.error reason, t₁)) :
    e.execute c s params t = ((.error (.aborted reason), s), t₁) :=
  bind_of_eq h

/-- An execution whose text cannot be prepared ends with the hooks being told so. -/
theorem execute_of_obtain_error {err : Error}
    (h : e.ask (e.context s.sql params) t = (.ok final, t₁))
    (h₁ : e.obtain s.prepared final.execSql t₁ = (.error err, t₂)) :
    e.execute c s params t = ((.error err, s), (e.tell final (.failure err.message) t₂).2) :=
  (bind_of_eq h).trans (bind_of_eq h₁)

/-- Otherwise the statement is executed and kept, and the hooks are told the outcome. -/
theorem execute_of_obtain {stmt stmt' : π} {result : Except Error c.Answer}
    (h : e.ask (e.context s.sql params) t = (.ok final, t₁))
    (h₁ : e.obtain s.prepared final.execSql t₁ = (.ok stmt, t₂))
    (h₂ : e.inner.execute c stmt params t₂ = ((result, stmt'), t₃)) :
    e.execute c s params t =
      ((result, { s with prepared := some (final.execSql, stmt') }),
        (e.tell final (c.outcome result) t₃).2) :=
  (bind_of_eq h).trans ((bind_of_eq h₁).trans (bind_of_eq h₂))

/-- Asking the hooks leaves the entries of hooks that are asked one after another. -/
theorem asked_ask (e : HookedEngine σ π) {ctx : QueryContext} (hctx : ctx.Consistent)
    (t : Traced σ) : ∃ events, (e.traced.ask ctx t).2.journal = t.journal ++ events ∧
      Asked e.hookCount 0 ctx events (e.traced.ask ctx t).1 := by
  unfold ask traced hookCount
  cases e.hook with
  | none => exact ⟨[], (List.append_nil _).symm, .done⟩
  | some h =>
    have hasked := h.asked_before 0 t hctx
    rw [Nat.zero_add] at hasked
    exact hasked

/-- Telling them leaves an entry for each of them, in their order. -/
theorem journal_tell (e : HookedEngine σ π) (ctx : QueryContext) (outcome : Outcome)
    (t : Traced σ) : (e.traced.tell ctx outcome t).2.journal
      = t.journal ++ tellings 0 e.hookCount ctx outcome := by
  unfold tell traced hookCount
  cases e.hook with
  | none => exact (List.append_nil _).symm
  | some h => exact h.journal_after 0 ctx outcome t

/-- What using the engine for a text leaves in the journal, as the result and as the statement: the
text cannot be prepared, or it is prepared and executed, or the statement at hand is executed, which
was prepared from that text. -/
inductive Used (c : Call) (s : HookedStatement (Labelled π)) (params : Params) (sql : String) :
    List Traced.Event → Except Error c.Answer → HookedStatement (Labelled π) → Prop
  | unprepared {err : Error} : s.text? ≠ some sql →
    Used c s params sql [.prepared sql (some err)] (.error err) s
  | prepared {result : Except Error c.Answer} {stmt : π} : s.text? ≠ some sql →
    Used c s params sql [.prepared sql none, .executed sql c params result] result
      { s with prepared := some (sql, ⟨sql, stmt⟩) }
  | kept {result : Except Error c.Answer} {stmt : π} : s.text? = some sql →
    Used c s params sql [.executed sql c params result] result
      { s with prepared := some (sql, ⟨sql, stmt⟩) }

/-- What an execution leaves, by the answer of the hooks: they refuse and nothing else happens, or
the engine is used for the text that they leave, and they are told how that ended. -/
inductive Executed (e : HookedEngine σ π) (c : Call) (s : HookedStatement (Labelled π))
    (params : Params) : Except String QueryContext → List Traced.Event → Except Error c.Answer →
    HookedStatement (Labelled π) → Prop
  | refused {asked : List Traced.Event} {reason : String} :
    Asked e.hookCount 0 (e.context s.sql params) asked (.error reason) →
    Executed e c s params (.error reason) asked (.error (.aborted reason)) s
  | used {asked used : List Traced.Event} {final : QueryContext} {result : Except Error c.Answer}
    {s' : HookedStatement (Labelled π)} :
    Asked e.hookCount 0 (e.context s.sql params) asked (.ok final) →
    Used c s params final.execSql used result s' →
    Executed e c s params (.ok final)
      (asked ++ used ++ tellings 0 e.hookCount final (c.outcome result)) result s'

/-- An execution leaves what `Executed` says, if the statement at hand has the right label. -/
theorem executed_execute (e : HookedEngine σ π) (c : Call) {s : HookedStatement (Labelled π)}
    (params : Params) (t : Traced σ) (hs : s.Honest) :
    ∃ events, (e.traced.execute c s params t).2.journal = t.journal ++ events ∧
      e.Executed c s params (e.ask (e.context s.sql params) t.state).1 events
        (e.traced.execute c s params t).1.1 (e.traced.execute c s params t).1.2 := by
  -- both engines give the hooks' answer, so it may be told without the journal
  have hanswer : (e.ask (e.context s.sql params) t.state).1
      = (e.traced.ask (e.context s.sql params) t).1 := congrArg Prod.fst (e.erases_ask _ t)
  rw [hanswer]
  have hctx : (e.context s.sql params).Consistent := rfl
  obtain ⟨asked, hjournal, hasked⟩ := e.asked_ask hctx t
  rcases hask : e.traced.ask (e.context s.sql params) t with ⟨reason | final, t₁⟩
  -- the hooks refuse, and nothing else is left
  · rw [hask] at hjournal hasked
    rw [execute_of_ask_error hask]
    exact ⟨asked, hjournal, .refused hasked⟩
  rw [hask] at hjournal hasked
  replace hjournal : t₁.journal = t.journal ++ asked := hjournal
  by_cases htext : s.text? = some final.execSql
  · -- the statement at hand was prepared from the text that is due
    obtain ⟨⟨sql, p⟩, hprepared, hsql⟩ := Option.map_eq_some_iff.mp htext
    obtain rfl : sql = final.execSql := hsql
    have hlabel : p.sql = final.execSql := hs _ hprepared
    have hobtain : e.traced.obtain s.prepared final.execSql t₁ = (.ok p, t₁) := by
      rw [hprepared, obtain_of_eq]
      rfl
    rcases hexecute : e.inner.execute c p.stmt params t₁.state with ⟨⟨result, stmt⟩, st⟩
    rw [execute_of_obtain hask hobtain (Engine.execute_traced hexecute), journal_tell, hlabel,
      hjournal, List.append_assoc t.journal, List.append_assoc t.journal]
    exact ⟨_, rfl, .used hasked (.kept htext)⟩
  · -- there is none, or it was prepared from another text
    have hobtain : e.traced.obtain s.prepared final.execSql t₁
        = e.traced.inner.prepare final.execSql t₁ := congrFun (obtain_of_ne htext) t₁
    rcases hprepare : e.inner.prepare final.execSql t₁.state with ⟨err | stmt, st⟩
    -- preparing failed, so nothing was executed
    · rw [execute_of_obtain_error hask (hobtain.trans (Engine.prepare_traced hprepare)),
        journal_tell, hjournal, List.append_assoc t.journal, List.append_assoc t.journal]
      exact ⟨_, rfl, .used hasked (.unprepared htext)⟩
    · have hobtained := hobtain.trans (Engine.prepare_traced hprepare)
      rcases hexecute : e.inner.execute c stmt params st with ⟨⟨result, stmt'⟩, st'⟩
      rw [execute_of_obtain hask hobtained (Engine.execute_traced hexecute), journal_tell, hjournal]
      refine ⟨_, ?_, .used hasked (.prepared htext)⟩
      simp only [List.append_assoc, List.cons_append, List.nil_append]
      rfl

end HookedEngine

end SqlAssembly

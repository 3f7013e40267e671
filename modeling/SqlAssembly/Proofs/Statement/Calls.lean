import SqlAssembly.Statement.Basic

namespace SqlAssembly

/-!
# Statements as chains of calls

A statement other than a query is put together by calls, one after the other, beginning with the
name of its table.

* `Insert.Call`, `Update.Call`, `Delete.Call` — the calls, a single filter as a list of one;
* `Insert.ofCalls`, `Update.ofCalls`, `Delete.ofCalls` — the statement of a chain of calls;
* `Collects` — steps that keep the first error and add what they are given;
* `Insert.given_ofCalls`, `Update.given_ofCalls` — unless a call failed, the values are those that
  were given, in the order of the calls.
-/

/-! ### Steps that collect -/

section

variable {σ γ β : Type} {ok : σ → Prop} {read : σ → List β} {step : σ → γ → σ} {given : γ → List β}

/-- Where all is well behind a step, it was so before, and the step added what it was given. -/
def Collects (ok : σ → Prop) (read : σ → List β) (step : σ → γ → σ) (given : γ → List β) : Prop :=
  ∀ s c, ok (step s c) → ok s ∧ read (step s c) = read s ++ given c

/-- A chain of steps collects what each of them collects, in order. -/
theorem Collects.foldl (h : Collects ok read step given) :
    Collects ok read (fun s (cs : List γ) => cs.foldl step s) (fun cs => cs.flatMap given) := by
  intro s cs hok
  induction cs generalizing s with
  | nil => exact ⟨hok, (List.append_nil _).symm⟩
  | cons c cs ih =>
    obtain ⟨hfirst, hrest⟩ := ih (step s c) hok
    obtain ⟨hs, hread⟩ := h s c hfirst
    refine ⟨hs, ?_⟩
    calc
      read (cs.foldl step (step s c)) = read (step s c) ++ cs.flatMap given := hrest
      _ = read s ++ (given c ++ cs.flatMap given) := by rw [hread, List.append_assoc]

end

/-- A recorded error is never lost. -/
theorem Target.fault_record_ne_none (t : Target) (e : Error) : (t.record e).fault ≠ none := by
  rw [Target.record]
  cases t.fault with
  | none => nofun
  | some e' => nofun

/-! ### INSERT -/

namespace Insert

/-- A call on an INSERT. -/
inductive Call where
  | value (column : String) (v : Value)
  | values (vs : List (String × Value))
  | options (o : BuildOptions)

/-- The statement after a call. -/
def after (s : Insert) : Call → Insert
  | .value column v => s.value column v
  | .values vs => s.addValues vs
  | .options o => s.withOptions o

/-- The values that a call gives. -/
def Call.given : Call → List Value
  | .value _ v => [v]
  | .values vs => vs.flatMap fun v => [v.2]
  | .options _ => []

/-- The INSERT into a table after some calls. -/
def ofCalls (table : String) (calls : List Call) : Insert := calls.foldl after (.into table)

/-- A value that is accepted is put behind the others. -/
theorem collects_value :
    Collects (fun s : Insert => s.target.fault = none) (fun s => s.values.map (·.2))
      (fun s (v : String × Value) => s.value v.1 v.2) (fun v => [v.2]) := by
  intro s v h
  dsimp only [value] at h ⊢
  -- a column that is refused leaves an error behind, and no value
  split at h
  · exact ⟨h, by simp⟩
  · exact absurd h (Target.fault_record_ne_none _ _)

/-- A call on an INSERT adds the values that it gives, unless it fails. -/
theorem collects_after :
    Collects (fun s : Insert => s.target.fault = none) (fun s => s.values.map (·.2))
      after Call.given := by
  intro s call h
  cases call with
  | value column v => exact collects_value s (column, v) h
  | values vs => exact collects_value.foldl s vs h
  | options o => exact ⟨h, (List.append_nil _).symm⟩

/-- An INSERT without an error has the values that were given, in order. -/
theorem given_ofCalls {table : String} {calls : List Call}
    (h : (ofCalls table calls).target.fault = none) :
    (ofCalls table calls).values.map (·.2) = calls.flatMap Call.given :=
  (collects_after.foldl (.into table) calls h).2

end Insert

/-! ### UPDATE -/

namespace Update

/-- A call on an UPDATE. -/
inductive Call where
  | set (column : String) (v : Value)
  | setAll (vs : List (String × Value))
  | filters (fs : List Filter)
  | options (o : BuildOptions)

/-- The statement after a call. -/
def after (s : Update) : Call → Update
  | .set column v => s.set column v
  | .setAll vs => s.setAll vs
  | .filters fs => s.filterAll fs
  | .options o => s.withOptions o

/-- The new values that a call gives. -/
def Call.given : Call → List Value
  | .set _ v => [v]
  | .setAll vs => vs.flatMap fun v => [v.2]
  | .filters _ | .options _ => []

/-- The UPDATE of a table after some calls. -/
def ofCalls (table : String) (calls : List Call) : Update := calls.foldl after (.of table)

/-- A new value that is accepted is put behind the others. -/
theorem collects_set :
    Collects (fun s : Update => s.target.fault = none) (fun s => s.sets.map (·.2))
      (fun s (v : String × Value) => s.set v.1 v.2) (fun v => [v.2]) := by
  intro s v h
  dsimp only [set] at h ⊢
  split at h
  · exact ⟨h, by simp⟩
  · exact absurd h (Target.fault_record_ne_none _ _)

/-- A call on an UPDATE adds the new values that it gives, unless it fails. -/
theorem collects_after :
    Collects (fun s : Update => s.target.fault = none) (fun s => s.sets.map (·.2))
      after Call.given := by
  intro s call h
  cases call with
  | set column v => exact collects_set s (column, v) h
  | setAll vs => exact collects_set.foldl s vs h
  | filters fs =>
    -- conditions leave the new values alone
    dsimp only [after, filterAll] at h ⊢
    split at h
    · exact ⟨h, (List.append_nil _).symm⟩
    · exact absurd h (Target.fault_record_ne_none _ _)
  | options o => exact ⟨h, (List.append_nil _).symm⟩

/-- An UPDATE without an error has the new values that were given, in order. -/
theorem given_ofCalls {table : String} {calls : List Call}
    (h : (ofCalls table calls).target.fault = none) :
    (ofCalls table calls).sets.map (·.2) = calls.flatMap Call.given :=
  (collects_after.foldl (.of table) calls h).2

end Update

/-! ### DELETE -/

namespace Delete

/-- A call on a DELETE. -/
inductive Call where
  | filters (fs : List Filter)
  | options (o : BuildOptions)

/-- The statement after a call. -/
def after (s : Delete) : Call → Delete
  | .filters fs => s.filterAll fs
  | .options o => s.withOptions o

/-- The DELETE from a table after some calls. -/
def ofCalls (table : String) (calls : List Call) : Delete := calls.foldl after (.fromTable table)

end Delete

end SqlAssembly

import SqlAssembly.Proofs.Query.Alike
import SqlAssembly.Proofs.Statement.Values

namespace SqlAssembly

/-!
# Statements that are alike

Values never reach the text: two statements that differ only in the values that they bind are built
into the same text with the same placeholders, or fail in the same way.

* `Statement.valuesUnder` — the values of a statement for a way to treat patterns;
* `Statement.Alike` — the relation, with the pairs of values at the same places;
* `Statement.Alike.twins` — statements that are alike are rendered in the same way;
* `Statement.build_of_alike` — they are built into the same text, each with its own values.
-/

/-! ### Statements checked before anything is bound -/

/-- An INSERT looks at its table and at its values before it binds anything. -/
theorem Insert.render_eq (s : Insert) :
    s.render =
      match s.target.resolve with
      | .error e => throw e
      | .ok table =>
        if s.values.isEmpty then throw (.columnsMissing .insert)
        else do
          let names ← Render.bindAll (s.values.map (·.2))
          return "INSERT INTO " ++ table ++ " (" ++ ", ".intercalate (s.values.map (·.1))
            ++ ") VALUES (" ++ ", ".intercalate names ++ ")" := by
  -- each of the two tests can stop the rendering
  unfold Insert.render
  cases s.target.resolve with
  | error e => rfl
  | ok table => cases s.values <;> rfl

/-- The assignments of an UPDATE depend on the columns only. -/
theorem Update.assignments_eq (sets : List (String × Value)) (names : List String) :
    ((sets.zip names).map fun (c, name) => c.1 ++ " = " ++ name)
      = ((sets.map (·.1)).zip names).map fun p => p.1 ++ " = " ++ p.2 := by
  rw [List.zip_map_left, List.map_map]
  rfl

/-- An UPDATE looks at its table and at its new values before it binds anything. -/
theorem Update.render_eq (s : Update) :
    s.render =
      match s.target.resolve with
      | .error e => throw e
      | .ok table =>
        if s.sets.isEmpty then throw (.columnsMissing .update)
        else do
          let names ← Render.bindAll (s.sets.map (·.2))
          let clauses ← WhereClause.renderAll s.clauses
          return "UPDATE " ++ table ++ " SET "
            ++ ", ".intercalate (((s.sets.map (·.1)).zip names).map fun p => p.1 ++ " = " ++ p.2)
            ++ whereSuffix clauses := by
  unfold Update.render
  simp only [Update.assignments_eq]
  cases s.target.resolve with
  | error e => rfl
  | ok table => cases s.sets <;> rfl

/-- A DELETE looks at its table before its conditions are rendered. -/
theorem Delete.render_eq (s : Delete) :
    s.render =
      match s.target.resolve with
      | .error e => throw e
      | .ok table => do
        let clauses ← WhereClause.renderAll s.clauses
        return "DELETE FROM " ++ table ++ whereSuffix clauses := by
  unfold Delete.render
  cases s.target.resolve <;> rfl

theorem CreateTable.render_eq (s : CreateTable) :
    s.render =
      match s.target.resolve with
      | .error e => throw e
      | .ok table =>
        if s.columns.isEmpty then throw (.columnsMissing .createTable)
        else return "CREATE TABLE " ++ (if s.ifNotExists then "IF NOT EXISTS " else "") ++ table
          ++ " (" ++ ", ".intercalate (s.columns.map columnSql) ++ ")" := by
  unfold CreateTable.render
  cases s.target.resolve with
  | error e => rfl
  | ok table => cases s.columns <;> rfl

theorem DropTable.render_eq (s : DropTable) :
    s.render =
      match s.target.resolve with
      | .error e => throw e
      | .ok table => return "DROP TABLE " ++ table := by
  unfold DropTable.render
  cases s.target.resolve <;> rfl

/-! ### The relation -/

/-- Columns with the first of their two values. -/
def firstValues (columns : List (String × Value × Value)) : List (String × Value) :=
  columns.map fun c => (c.1, c.2.1)

/-- Columns with the second of their two values. -/
def secondValues (columns : List (String × Value × Value)) : List (String × Value) :=
  columns.map fun c => (c.1, c.2.2)

section

variable (columns : List (String × Value × Value))

/-- The columns are the same, whichever of the two values they have. -/
theorem columns_firstValues : (firstValues columns).map (·.1) = columns.map (·.1) := by
  rw [firstValues, List.map_map]
  rfl

theorem columns_secondValues : (secondValues columns).map (·.1) = columns.map (·.1) := by
  rw [secondValues, List.map_map]
  rfl

/-- The first values are those of the pairs. -/
theorem values_firstValues : (firstValues columns).map (·.2) = (columns.map (·.2)).map (·.1) := by
  rw [firstValues, List.map_map, List.map_map]
  rfl

theorem values_secondValues :
    (secondValues columns).map (·.2) = (columns.map (·.2)).map (·.2) := by
  rw [secondValues, List.map_map, List.map_map]
  rfl

theorem isEmpty_firstValues : (firstValues columns).isEmpty = columns.isEmpty := by
  cases columns <;> rfl

theorem isEmpty_secondValues : (secondValues columns).isEmpty = columns.isEmpty := by
  cases columns <;> rfl

end

namespace Statement

/-- The values of a statement for a way to treat patterns, which need not be that of its own
options. -/
def valuesUnder (mode : PatternMode) : Statement → List Value
  | .select s => s.values mode
  | .insert s => s.values.map (·.2)
  | .update s => s.sets.map (·.2) ++ WhereClause.allValues mode s.clauses
  | .delete s => WhereClause.allValues mode s.clauses
  | .createTable _ | .dropTable _ => []
  | .raw s => s.params.values

/-- The values of a statement are those for the way its own options treat patterns. -/
theorem values_eq_valuesUnder (s : Statement) : s.values = s.valuesUnder s.options.patterns := by
  cases s <;> rfl

/-- The statements differ in bound values, and in what only matters to a query that is built on
its own.  Columns that get values are the same. -/
inductive Alike (mode : PatternMode) : Statement → Statement → List (Value × Value) → Prop
  | select {s s' : Select} {ps : List (Value × Value)} : s.Alike mode s' ps →
    s.options = s'.options → Alike mode (.select s) (.select s') ps
  | insert (target : Target) (columns : List (String × Value × Value)) (options : BuildOptions) :
    Alike mode (.insert ⟨target, firstValues columns, options⟩)
      (.insert ⟨target, secondValues columns, options⟩) (columns.map (·.2))
  | update (target : Target) (columns : List (String × Value × Value)) (options : BuildOptions)
    {clauses clauses' : List WhereClause} {ps : List (Value × Value)} :
    WhereClause.AllAlike mode clauses clauses' ps →
    Alike mode (.update ⟨target, firstValues columns, clauses, options⟩)
      (.update ⟨target, secondValues columns, clauses', options⟩) (columns.map (·.2) ++ ps)
  | delete (target : Target) (options : BuildOptions) {clauses clauses' : List WhereClause}
    {ps : List (Value × Value)} : WhereClause.AllAlike mode clauses clauses' ps →
    Alike mode (.delete ⟨target, clauses, options⟩) (.delete ⟨target, clauses', options⟩) ps
  | createTable (s : CreateTable) : Alike mode (.createTable s) (.createTable s) []
  | dropTable (s : DropTable) : Alike mode (.dropTable s) (.dropTable s) []

variable {mode : PatternMode} {s s' : Statement} {ps : List (Value × Value)}

/-- Statements that are alike are built under the same options. -/
theorem Alike.options_eq (h : s.Alike mode s' ps) : s.options = s'.options := by
  cases h with
  | select _ h => exact h
  | insert | update | delete | createTable | dropTable => rfl

/-- The pairs are the values of the two statements, in order. -/
theorem Alike.valuesUnder_eq (h : s.Alike mode s' ps) :
    s.valuesUnder mode = ps.map (·.1) ∧ s'.valuesUnder mode = ps.map (·.2) := by
  cases h with
  | select h _ => exact h.values_eq
  | insert target columns options =>
    exact ⟨values_firstValues columns, values_secondValues columns⟩
  | update target columns options h =>
    obtain ⟨hfirst, hsecond⟩ := h.values_eq
    simp only [valuesUnder, values_firstValues, values_secondValues, hfirst, hsecond,
      List.map_append, and_self]
  | delete target options h => exact h.values_eq
  | createTable | dropTable => exact ⟨rfl, rfl⟩

/-- Columns and their values, each with itself. -/
theorem exists_columns (values : List (String × Value)) :
    ∃ columns, firstValues columns = values ∧ secondValues columns = values ∧
      columns.map (·.2) = samePairs (values.map (·.2)) := by
  refine ⟨values.map fun c => (c.1, c.2, c.2), ?_, ?_, ?_⟩
  all_goals simp [firstValues, secondValues, samePairs, Function.comp_def]

/-- A statement that is not written by hand is like itself. -/
theorem alike_refl (mode : PatternMode) (hraw : ∀ r, s ≠ .raw r) :
    s.Alike mode s (samePairs (s.valuesUnder mode)) := by
  cases s with
  | select s => exact .select (s.alike_refl mode) rfl
  | insert s =>
    obtain ⟨columns, hfirst, hsecond, hvalues⟩ := exists_columns s.values
    have h : Alike mode _ _ _ := .insert s.target columns s.options
    rwa [hfirst, hsecond, hvalues] at h
  | update s =>
    obtain ⟨columns, hfirst, hsecond, hvalues⟩ := exists_columns s.sets
    have h := Alike.update s.target columns s.options (WhereClause.allAlike_refl mode s.clauses)
    rwa [hfirst, hsecond, hvalues, ← samePairs_append] at h
  | delete s => exact .delete s.target s.options (WhereClause.allAlike_refl mode s.clauses)
  | createTable s => exact .createTable s
  | dropTable s => exact .dropTable s
  | raw s => exact absurd rfl (hraw s)

/-! ### Rendering -/

open Render

/-- Statements that are alike are rendered in the same way. -/
theorem Alike.twins (h : s.Alike mode s' ps) : Twins mode Numbered ps s.render s'.render := by
  cases h with
  | select h _ => exact h.twins
  | insert target columns options =>
    rw [render, render, Insert.render_eq, Insert.render_eq]
    cases target.resolve with
    | error e => exact .throw e _
    | ok table =>
    -- what is left of the columns is the same on both sides
    dsimp only
    rw [isEmpty_firstValues, isEmpty_secondValues, columns_firstValues, columns_secondValues,
      values_firstValues, values_secondValues]
    cases columns with
    | nil => exact .throw (.columnsMissing .insert) _
    | cons c columns =>
      exact (Twins.bindAll _).map fun hx => ((hx.1.intercalate ", ").prepend _).postpend ")"
  | update target columns options h =>
    rw [render, render, Update.render_eq, Update.render_eq]
    cases target.resolve with
    | error e => exact .throw e _
    | ok table =>
    dsimp only
    rw [isEmpty_firstValues, isEmpty_secondValues, columns_firstValues, columns_secondValues,
      values_firstValues, values_secondValues]
    cases columns with
    | nil => exact .throw (.columnsMissing .update) _
    | cons c columns =>
      -- the new values are bound before those of the conditions
      refine (Twins.bindAll _).seq h.twins NumberedAll.shift fun hx hy => ?_
      have hsets := hx.1.assignments ((c :: columns).map (·.1)) (by simpa using hx.2)
      exact ((hsets.intercalate ", ").prepend _).append hy.whereSuffix
  | delete target options h =>
    rw [render, render, Delete.render_eq, Delete.render_eq]
    cases target.resolve with
    | error e => exact .throw e _
    | ok table => exact h.twins.map fun hx => hx.whereSuffix.prepend _
  | createTable s =>
    rw [render, CreateTable.render_eq]
    cases s.target.resolve with
    | error e => exact .throw e _
    | ok table =>
    dsimp only
    split
    · exact .throw (.columnsMissing .createTable) _
    · exact .pure (.text _)
  | dropTable s =>
    rw [render, DropTable.render_eq]
    cases s.target.resolve with
    | error e => exact .throw e _
    | ok table => exact .pure (.text _)

/-! ### Building -/

/-- What a plan says about a build. -/
theorem build_of_follows {vs : List Value} {plan : Except Error (Nat → String)}
    (h : Follows s.options.patterns vs s.render plan) :
    s.build = plan.map fun text =>
      ⟨text s.options.firstPlaceholder.toNat, ((Allocator.new s.options).bindAll vs).params⟩ := by
  unfold build
  cases plan with
  | error e =>
    obtain ⟨n, -, h⟩ := h
    rw [h _ rfl]
    rfl
  | ok text =>
    rw [h _ rfl]
    rfl

/-- The parameters of a build are its values under the first names. -/
theorem entries_new (options : BuildOptions) (vs : List Value) :
    ((Allocator.new options).bindAll vs).params.entries
      = ((Allocator.new options).names vs.length).zip vs := by
  rw [Allocator.bindAll_entries]
  rfl

/-- Statements that are alike fail with the same error, or are built into the same text with the
same placeholders.  The values are those of each statement, in the order of binding, and differ only
where the statements do. -/
theorem build_of_alike {s s' : Statement} {pairs : List (Value × Value)}
    (h : s.Alike s.options.patterns s' pairs) :
    (∃ e, s.build = .error e ∧ s'.build = .error e) ∨
    ∃ q q', s.build = .ok q ∧ s'.build = .ok q' ∧ q.sql = q'.sql ∧
      q.params.entries.map (·.1) = q'.params.entries.map (·.1) ∧
      q.params.values = s.values ∧ s.values = pairs.map (·.1) ∧
      q'.params.values = s'.values ∧ s'.values = pairs.map (·.2) := by
  obtain ⟨plan, -, hfirst, hsecond⟩ := h.twins
  obtain ⟨hvalues, hvalues'⟩ := h.valuesUnder_eq
  rw [← values_eq_valuesUnder] at hvalues
  rw [h.options_eq, ← values_eq_valuesUnder] at hvalues'
  have hbuild := build_of_follows hfirst
  rw [h.options_eq] at hsecond
  have hbuild' := build_of_follows hsecond
  rw [← h.options_eq] at hbuild'
  -- the plan is the same for both: an error, or a text that does not name the values
  cases plan with
  | error e => exact .inl ⟨e, hbuild, hbuild'⟩
  | ok text =>
    refine .inr ⟨_, _, hbuild, hbuild', rfl, ?names, ?first, hvalues, ?second, hvalues'⟩
    case names =>
      rw [entries_new, entries_new, List.map_fst_zip (by simp), List.map_fst_zip (by simp)]
      simp only [List.length_map]
    case first => rw [Params.values, entries_new, List.map_snd_zip (by simp), hvalues]
    case second => rw [Params.values, entries_new, List.map_snd_zip (by simp), hvalues']

/-- Values that look like text of the statement, in an assignment, a list, a pattern of an embedded
query, next to that query and in a range. -/
theorem build_of_alike_lookalikes :
    let s : Value → Value → String → Statement := fun v w pattern => .update {
      target := { table := some "t" }
      sets := [("a", v)]
      clauses := [
        ⟨.subquery {
          fields := [.column "*"]
          tables := ["u"]
          clauses := [⟨.inList "b" .isIn [v, w], [.pattern "c" .like pattern]⟩] } .gt w,
        [.between "d" .between v w]⟩]
      options := { patterns := .bound } }
    ∃ q q', (s (.int 1) .null "x").build = .ok q ∧
      (s (.text "$0' OR 1 = 1") (.int 0) "'").build = .ok q' ∧ q.sql = q'.sql ∧
      q.params.entries.map (·.1) = q'.params.entries.map (·.1) ∧
      q.params.values = [.int 1, .null, .int 1, .null, .text "x", .int 1, .null] ∧
      q'.params.values = [.text "$0' OR 1 = 1", .int 0, .text "$0' OR 1 = 1", .int 0, .text "'",
        .text "$0' OR 1 = 1", .int 0] := by
  intro s
  have h : (s (.int 1) .null "x").Alike .bound (s (.text "$0' OR 1 = 1") (.int 0) "'") _ :=
    .update { table := some "t" } [("a", .int 1, .text "$0' OR 1 = 1")] { patterns := .bound }
      (.cons (.mk (.subquery .gt .null (.int 0)
          (.mk (.cons (.column "*") .nil)
            (.cons (.mk (.inList "b" .isIn [(.int 1, .text "$0' OR 1 = 1"), (.null, .int 0)])
              (.cons (.bound "c" .like "x" "'" rfl) .nil)) .nil)))
        (.cons (.between "d" .between (.int 1) (.text "$0' OR 1 = 1") .null (.int 0)) .nil)) .nil)
  obtain ⟨q, hq⟩ : ∃ q, (s (.int 1) .null "x").build = .ok q := ⟨_, rfl⟩
  rcases build_of_alike (s := s (.int 1) .null "x") h with ⟨e, he, -⟩ |
    ⟨r, r', hr, hr', hsql, hnames, hvalues, hfirst, hvalues', hsecond⟩
  · rw [hq] at he
    cases he
  · exact ⟨r, r', hr, hr', hsql, hnames, hvalues.trans hfirst, hvalues'.trans hsecond⟩

end Statement

end SqlAssembly

import SqlAssembly.Proofs.Query.Values
import SqlAssembly.Statement.Basic

namespace SqlAssembly

/-!
# Statements that are built

What a statement has rendered and bound when it is built: one lemma for each kind of statement.
-/

variable {a a' : Allocator} {sql : String}

/-- A table is resolved if nothing was recorded and it was named. -/
theorem Target.resolve_ok {t : Target} {table : String} (h : t.resolve = .ok table) :
    t.fault = none ∧ t.table = some table := by
  unfold resolve at h
  split at h
  · cases h
  · cases h
  · next hfault htable =>
    cases h
    exact ⟨hfault, htable⟩

/-- An INSERT has bound its values, and has the text of its table, columns and placeholders. -/
theorem Insert.render_ok {s : Insert} (h : s.render.outcome a = (.ok sql, a')) :
    s.target.fault = none ∧ a' = a.bindAll (s.values.map (·.2)) ∧
      ∃ table, s.target.table = some table ∧
        sql = "INSERT INTO " ++ table ++ " (" ++ ", ".intercalate (s.values.map (·.1))
          ++ ") VALUES (" ++ ", ".intercalate (a.names s.values.length) ++ ")" := by
  obtain ⟨target, values, options⟩ := s
  -- the table is resolved first, on the allocator as it is
  obtain ⟨table, m, htable, h⟩ := Render.bind_eq_ok.mp h
  rw [Render.outcome_liftExcept] at htable
  obtain ⟨hresolve, rfl⟩ := Prod.mk.inj htable
  cases values with
  | nil => cases h
  | cons v values =>
  obtain ⟨names, m, hnames, h⟩ := Render.bind_eq_ok.mp h
  rw [Render.outcome_bindAll, List.length_map] at hnames
  cases hnames
  cases h
  obtain ⟨hfault, hsome⟩ := Target.resolve_ok hresolve
  exact ⟨hfault, rfl, table, hsome, rfl⟩

/-- The two lists of an INSERT, each in its parentheses. -/
theorem insert_text (table columns names : String) :
    "INSERT INTO " ++ table ++ " (" ++ columns ++ ") VALUES (" ++ names ++ ")"
      = "INSERT INTO " ++ (table ++ (" " ++ ("(" ++ columns ++ ")" ++
          (" VALUES " ++ ("(" ++ names ++ ")"))))) := by
  have hopen : " (" = " " ++ "(" := rfl
  have hmiddle : ") VALUES (" = ")" ++ (" VALUES " ++ "(") := rfl
  rw [hopen, hmiddle]
  simp only [String.append_assoc]

/-- An UPDATE has bound its new values before its conditions were rendered. -/
theorem Update.render_ok {s : Update} (h : s.render.outcome a = (.ok sql, a')) :
    s.target.fault = none ∧ ∃ table, s.target.table = some table ∧ ∃ clauses,
      (WhereClause.renderAll s.clauses).outcome (a.bindAll (s.sets.map (·.2)))
        = (.ok clauses, a') ∧
      sql = "UPDATE " ++ table ++ " SET "
        ++ ", ".intercalate ((s.sets.zip (a.names s.sets.length)).map
          fun (c, name) => c.1 ++ " = " ++ name)
        ++ whereSuffix clauses := by
  obtain ⟨target, sets, clauses, options⟩ := s
  obtain ⟨table, m, htable, h⟩ := Render.bind_eq_ok.mp h
  rw [Render.outcome_liftExcept] at htable
  obtain ⟨hresolve, rfl⟩ := Prod.mk.inj htable
  cases sets with
  | nil => cases h
  | cons v sets =>
  -- all new values are bound before the first condition is looked at
  obtain ⟨names, m, hnames, h⟩ := Render.bind_eq_ok.mp h
  rw [Render.outcome_bindAll, List.length_map] at hnames
  cases hnames
  obtain ⟨texts, m, htexts, h⟩ := Render.bind_eq_ok.mp h
  cases h
  obtain ⟨hfault, hsome⟩ := Target.resolve_ok hresolve
  exact ⟨hfault, table, hsome, texts, htexts, rfl⟩

/-- A DELETE has rendered its conditions, and has the text of its table and of these. -/
theorem Delete.render_ok {s : Delete} (h : s.render.outcome a = (.ok sql, a')) :
    ∃ table, s.target.table = some table ∧ ∃ clauses,
      (WhereClause.renderAll s.clauses).outcome a = (.ok clauses, a') ∧
      sql = "DELETE FROM " ++ table ++ whereSuffix clauses := by
  obtain ⟨table, m, htable, h⟩ := Render.bind_eq_ok.mp h
  rw [Render.outcome_liftExcept] at htable
  obtain ⟨hresolve, rfl⟩ := Prod.mk.inj htable
  obtain ⟨texts, m, htexts, h⟩ := Render.bind_eq_ok.mp h
  cases h
  exact ⟨table, (Target.resolve_ok hresolve).2, texts, htexts, rfl⟩

/-- A CREATE TABLE has the text of its table and its columns. -/
theorem CreateTable.render_ok {s : CreateTable} (h : s.render.outcome a = (.ok sql, a')) :
    ∃ table, s.target.table = some table ∧
      sql = "CREATE TABLE " ++ (if s.ifNotExists then "IF NOT EXISTS " else "") ++ table
        ++ " (" ++ ", ".intercalate (s.columns.map columnSql) ++ ")" := by
  obtain ⟨target, columns, ifNotExists⟩ := s
  obtain ⟨table, m, htable, h⟩ := Render.bind_eq_ok.mp h
  rw [Render.outcome_liftExcept] at htable
  obtain ⟨hresolve, rfl⟩ := Prod.mk.inj htable
  cases columns with
  | nil => cases h
  | cons c columns =>
    cases h
    exact ⟨table, (Target.resolve_ok hresolve).2, rfl⟩

/-- CREATE TABLE and DROP TABLE bind nothing. -/
theorem CreateTable.eq_of_render {s : CreateTable} (h : s.render.outcome a = (.ok sql, a')) :
    a' = a := by
  obtain ⟨target, columns, ifNotExists⟩ := s
  obtain ⟨table, m, htable, h⟩ := Render.bind_eq_ok.mp h
  rw [Render.outcome_liftExcept] at htable
  obtain ⟨-, rfl⟩ := Prod.mk.inj htable
  cases columns with
  | nil => cases h
  | cons c columns =>
    cases h
    rfl

/-- A DROP TABLE binds nothing. -/
theorem DropTable.eq_of_render {s : DropTable} (h : s.render.outcome a = (.ok sql, a')) :
    a' = a := by
  obtain ⟨table, m, htable, h⟩ := Render.bind_eq_ok.mp h
  rw [Render.outcome_liftExcept] at htable
  obtain ⟨-, rfl⟩ := Prod.mk.inj htable
  cases h
  rfl

/-- A statement is built by rendering it on an allocator of its own. -/
theorem Statement.build_ok {s : Statement} {q : BuiltQuery} (h : s.build = .ok q) :
    ∃ a, s.render.outcome (Allocator.new s.options) = (.ok q.sql, a) ∧ q.params = a.params := by
  unfold build at h
  split at h
  · next sql a hrender =>
    cases h
    exact ⟨a, hrender, rfl⟩
  · cases h

end SqlAssembly

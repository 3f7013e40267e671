import SqlAssembly.Proofs.Query.Quoted
import SqlAssembly.Proofs.Statement.Alike
import SqlAssembly.Proofs.Statement.Builder

namespace SqlAssembly

/-!
# What is placed in a statement

The text of a statement is made of texts that were checked before, with keywords, placeholders,
literals and punctuation around them.

* `Statement.placed` — these texts, in the order in which they stand;
* `Insert.composed_of_render`, `Update.composed_of_render` — the text of one kind of statement;
* `Statement.composed_of_render` — the text of any statement.
-/

open Grammar Sql

/-! ### Texts of statements -/

/-- The texts that are placed for the table of a statement. -/
def Target.placed (t : Target) : List Placed := t.table.toList.map (Prod.mk .table)

/-- The texts that are placed for a column that is created. -/
def CreateTable.columnPlaced (c : String × String) : List Placed :=
  [(.name, c.1), (.fragment, String.ofList (Text.trim c.2.toList))]

/-- The texts that are placed in a statement, in order. -/
def Statement.placed : Statement → List Placed
  | .select s => s.placed
  | .insert s => s.target.placed ++ s.values.map fun v => (.column, v.1)
  | .update s => s.target.placed ++ (s.sets.map (fun v => (.column, v.1)) ++
      WhereClause.allPlaced s.clauses)
  | .delete s => s.target.placed ++ WhereClause.allPlaced s.clauses
  | .createTable s => s.target.placed ++ s.columns.flatMap CreateTable.columnPlaced
  | .dropTable s => s.target.placed
  | .raw s => [(.fragment, s.sql)]

/-- A table that was named is placed. -/
theorem Target.placed_of_table {t : Target} {table : String} (h : t.table = some table) :
    t.placed = [(.table, table)] := by
  rw [placed, h]
  rfl

/-- The columns of values are closed if all that is placed is. -/
theorem closed_columns {values : List (String × Value)}
    (h : AllClosed (values.map fun v => (.column, v.1))) : ∀ v ∈ values, Closed v.1.toList :=
  fun v hv => h (.column, v.1) (List.mem_map.mpr ⟨v, hv, rfl⟩)

section

variable {a a' : Allocator} {sql : String}

/-- The text of an INSERT is composed of its table and its columns. -/
theorem Insert.composed_of_render {s : Insert} (hs : AllClosed (Statement.insert s).placed)
    (h : s.render.outcome a = (.ok sql, a')) :
    Composed sql.toList ((Statement.insert s).placed.map (·.2)) := by
  obtain ⟨-, -, table, htable, rfl⟩ := Insert.render_ok h
  rw [Statement.placed, Target.placed_of_table htable, allClosed_append] at hs
  have hcolumns := composed_parenthesized ((ComposedAll.map_single fun v hv =>
    Composed.whole (closed_columns hs.2 v hv)).intercalate (g := ", ") (by decide +kernel))
  have hnames := composed_parenthesized ((composedAll_names a s.values.length).intercalate
    (g := ", ") (by decide +kernel))
  -- the table, the columns and the placeholders, each behind its keyword
  have hbody := (Composed.whole (hs.1 _ (List.mem_singleton_self _))).link (g := " ".toList)
    (by decide +kernel) (hcolumns.link (g := " VALUES ".toList) (by decide +kernel) hnames)
  simp only [← String.toList_append, List.append_nil] at hbody
  rw [insert_text, String.toList_append, Statement.placed, Target.placed_of_table htable,
    List.map_append, List.map_map]
  exact hbody.lead (by decide +kernel)

/-- The new values of an UPDATE: every column with a placeholder. -/
theorem composedAll_sets {sets : List (String × Value)} (hsets : ∀ v ∈ sets, Closed v.1.toList)
    (a : Allocator) :
    ComposedAll ((sets.zip (a.names sets.length)).map fun (c, name) => c.1 ++ " = " ++ name)
      (sets.map (·.1)) := by
  induction sets generalizing a with
  | nil => exact .nil
  | cons v sets ih =>
    rw [List.forall_mem_cons] at hsets
    rw [List.length_cons, a.names_succ _ v.2, List.zip_cons_cons, List.map_cons]
    have hset := (Composed.whole hsets.1).link (g := " = ".toList) (by decide +kernel)
      (composed_placeholder a.next)
    rw [← String.toList_append, ← String.toList_append, ← String.append_assoc] at hset
    exact .cons hset (ih hsets.2 (a.bind v.2))

/-- The text of an UPDATE is composed of its table, its columns and its conditions. -/
theorem Update.composed_of_render {s : Update} (hs : AllClosed (Statement.update s).placed)
    (h : s.render.outcome a = (.ok sql, a')) :
    Composed sql.toList ((Statement.update s).placed.map (·.2)) := by
  obtain ⟨-, table, htable, clauses, hclauses, rfl⟩ := Update.render_ok h
  rw [Statement.placed, Target.placed_of_table htable, allClosed_append, allClosed_append] at hs
  obtain ⟨htableClosed, hsetsClosed, hclausesClosed⟩ := hs
  have hlist := (composedAll_sets (closed_columns hsetsClosed) a).intercalate (g := ", ")
    (by decide +kernel)
  -- the WHERE part trails: a blank or nothing stands in front of it
  have hwhere := trails_whereSuffix (WhereClause.composedAll_of_renderAll _ hclausesClosed hclauses)
  have hbody := (Composed.whole (htableClosed _ (List.mem_singleton_self _))).link
    (g := " SET ".toList) (by decide +kernel) (hlist.append hwhere.delimited hwhere.toComposed)
  simp only [← String.toList_append] at hbody
  rw [String.append_assoc, String.append_assoc, String.append_assoc, String.toList_append,
    Statement.placed, Target.placed_of_table htable, List.map_append, List.map_append, List.map_map]
  exact hbody.lead (by decide +kernel)

/-- The text of a DELETE is composed of its table and its conditions. -/
theorem Delete.composed_of_render {s : Delete} (hs : AllClosed (Statement.delete s).placed)
    (h : s.render.outcome a = (.ok sql, a')) :
    Composed sql.toList ((Statement.delete s).placed.map (·.2)) := by
  obtain ⟨table, htable, clauses, hclauses, rfl⟩ := Delete.render_ok h
  rw [Statement.placed, Target.placed_of_table htable, allClosed_append] at hs
  have hwhere := trails_whereSuffix (WhereClause.composedAll_of_renderAll _ hs.2 hclauses)
  have hbody := (Composed.whole (hs.1 _ (List.mem_singleton_self _))).append hwhere.delimited
    hwhere.toComposed
  rw [String.append_assoc, String.toList_append, String.toList_append, Statement.placed,
    Target.placed_of_table htable, List.map_append]
  exact hbody.lead (by decide +kernel)

/-- The text of a column is composed of its name and its type. -/
theorem CreateTable.composed_columnSql {c : String × String} (h : AllClosed (columnPlaced c)) :
    Composed (columnSql c).toList ((columnPlaced c).map (·.2)) := by
  rw [columnPlaced, AllClosed, List.forall_mem_cons, List.forall_mem_singleton] at h
  rw [columnSql, String.append_assoc, String.toList_append, String.toList_append]
  exact (Composed.whole h.1).link (by decide +kernel) (.whole h.2)

/-- The text of a CREATE TABLE is composed of its table and its columns. -/
theorem CreateTable.composed_of_render {s : CreateTable}
    (hs : AllClosed (Statement.createTable s).placed) (h : s.render.outcome a = (.ok sql, a')) :
    Composed sql.toList ((Statement.createTable s).placed.map (·.2)) := by
  obtain ⟨table, htable, rfl⟩ := CreateTable.render_ok h
  rw [Statement.placed, Target.placed_of_table htable, allClosed_append] at hs
  obtain ⟨htableClosed, hcolumns⟩ := hs
  have hlist := composed_parenthesized ((ComposedAll.map fun c hc =>
    composed_columnSql fun p hp => hcolumns p (List.mem_flatMap.mpr ⟨c, hc, hp⟩)).intercalate
      (g := ", ") (by decide +kernel))
  have hbody := (Composed.whole (htableClosed _ (List.mem_singleton_self _))).link
    (g := " ".toList) (by decide +kernel) hlist
  -- the guard is made of connectives, written or not
  have hguard : isLead ("CREATE TABLE " ++ (if s.ifNotExists then "IF NOT EXISTS " else "")).toList
      = true := by
    cases s.ifNotExists <;> decide +kernel
  have htext : "CREATE TABLE " ++ (if s.ifNotExists then "IF NOT EXISTS " else "") ++ table
      ++ " (" ++ ", ".intercalate (s.columns.map columnSql) ++ ")"
      = "CREATE TABLE " ++ (if s.ifNotExists then "IF NOT EXISTS " else "") ++
          (table ++ (" " ++ ("(" ++ ", ".intercalate (s.columns.map columnSql) ++ ")"))) := by
    have hopen : " (" = " " ++ "(" := rfl
    rw [hopen]
    simp only [String.append_assoc]
  simp only [← String.toList_append] at hbody
  rw [htext, String.toList_append, Statement.placed, Target.placed_of_table htable, List.map_append,
    List.map_flatMap]
  exact hbody.lead hguard

/-- The text of a DROP TABLE is composed of its table. -/
theorem DropTable.composed_of_render {s : DropTable}
    (hs : AllClosed (Statement.dropTable s).placed) (h : s.render.outcome a = (.ok sql, a')) :
    Composed sql.toList ((Statement.dropTable s).placed.map (·.2)) := by
  obtain ⟨table, m, htable, h⟩ := Render.bind_eq_ok.mp h
  rw [Render.outcome_liftExcept] at htable
  obtain ⟨hresolve, rfl⟩ := Prod.mk.inj htable
  cases h
  rw [Statement.placed, Target.placed_of_table (Target.resolve_ok hresolve).2] at hs ⊢
  rw [String.toList_append]
  exact (Composed.whole (hs _ (List.mem_singleton_self _))).lead (by decide +kernel)

/-- The text of a statement is composed of what is placed in it. -/
theorem Statement.composed_of_render (s : Statement) (hs : AllClosed s.placed)
    (h : s.render.outcome a = (.ok sql, a')) : Composed sql.toList (s.placed.map (·.2)) := by
  cases s with
  | select s => exact Select.composed_of_render s hs h
  | insert s => exact Insert.composed_of_render hs h
  | update s => exact Update.composed_of_render hs h
  | delete s => exact Delete.composed_of_render hs h
  | createTable s => exact CreateTable.composed_of_render hs h
  | dropTable s => exact DropTable.composed_of_render hs h
  | raw s =>
    obtain ⟨-, m, -, h⟩ := Render.bind_eq_ok.mp h
    cases h
    exact .whole (hs _ (List.mem_singleton_self _))

end

end SqlAssembly

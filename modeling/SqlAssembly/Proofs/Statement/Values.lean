import SqlAssembly.Proofs.Statement.Calls
import SqlAssembly.Proofs.Statement.Steps

namespace SqlAssembly

/-!
# The parameters of a statement

A statement that is built has the values of a traversal of it as parameters, numbered one after
the other from the first placeholder of its options.

* `Statement.values` — the traversal;
* `Statement.bindAll_of_render` — rendering binds exactly these values, in order;
* `Statement.params_of_build` — the names and the values of the parameters.
-/

namespace Statement

/-- The values of a statement: new values come before those of conditions. -/
def values : Statement → List Value
  | .select s => s.values s.options.patterns
  | .insert s => s.values.map (·.2)
  | .update s => s.sets.map (·.2) ++ WhereClause.allValues s.options.patterns s.clauses
  | .delete s => WhereClause.allValues s.options.patterns s.clauses
  | .createTable _ | .dropTable _ => []
  | .raw s => s.params.values

/-- A statement that is not written by hand binds its values, in order, and nothing else. -/
theorem bindAll_of_render {s : Statement} (hraw : ∀ r, s ≠ .raw r) {a a' : Allocator}
    {sql : String} (ha : a.options = s.options) (h : s.render.outcome a = (.ok sql, a')) :
    a' = a.bindAll s.values := by
  cases s with
  | select s =>
    have := Select.bindAll_of_render s h
    rwa [ha] at this
  | insert s => exact (Insert.render_ok h).2.1
  | update s =>
    obtain ⟨-, table, -, clauses, hclauses, -⟩ := Update.render_ok h
    have := WhereClause.bindAll_of_renderAll s.clauses hclauses
    rwa [Allocator.bindAll_options, ha, ← Allocator.bindAll_append] at this
  | delete s =>
    obtain ⟨table, -, clauses, hclauses, -⟩ := Delete.render_ok h
    have := WhereClause.bindAll_of_renderAll s.clauses hclauses
    rwa [ha] at this
  | createTable s => exact CreateTable.eq_of_render h
  | dropTable s => exact DropTable.eq_of_render h
  -- only a statement written by hand brings values of its own
  | raw s => exact absurd rfl (hraw s)

/-- The parameters of a statement are the next placeholders with its values. -/
theorem entries_of_build {s : Statement} (hraw : ∀ r, s ≠ .raw r) {q : BuiltQuery}
    (h : s.build = .ok q) :
    q.params.entries = ((Allocator.new s.options).names s.values.length).zip s.values := by
  obtain ⟨a, hrender, hparams⟩ := build_ok h
  have ha : a = (Allocator.new s.options).bindAll s.values := bindAll_of_render hraw rfl hrender
  rw [hparams, ha, Allocator.bindAll_entries]
  rfl

/-- The parameters of a build are numbered from the first placeholder. -/
theorem names_of_build {s : Statement} (hraw : ∀ r, s ≠ .raw r) {q : BuiltQuery}
    (h : s.build = .ok q) :
    q.params.entries.map (·.1) = (Allocator.new s.options).names s.values.length := by
  rw [entries_of_build hraw h]
  exact List.map_fst_zip (by simp)

/-- The values of a build are those of the statement. -/
theorem values_of_build {s : Statement} (hraw : ∀ r, s ≠ .raw r) {q : BuiltQuery}
    (h : s.build = .ok q) : q.params.values = s.values := by
  rw [Params.values, entries_of_build hraw h]
  exact List.map_snd_zip (by simp)

/-- The parameters are numbered without a gap and without wrapping, their values are those of the
statement, and those of an INSERT and of an UPDATE are in the order of the calls. -/
theorem params_of_build :
    (∀ (s : Statement) (q : BuiltQuery), (∀ r, s ≠ .raw r) → s.build = .ok q →
      q.params.entries.map (·.1) = (List.range s.values.length).map (fun i =>
        "$" ++ toString (s.options.firstPlaceholder.toNat + i)) ∧
      q.params.values = s.values) ∧
    (∀ (table : String) (calls : List Insert.Call) (q : BuiltQuery),
      (Statement.insert (.ofCalls table calls)).build = .ok q →
      q.params.values = calls.flatMap Insert.Call.given) ∧
    (∀ (table : String) (calls : List Update.Call) (q : BuiltQuery),
      (Statement.update (.ofCalls table calls)).build = .ok q →
      q.params.values = calls.flatMap Update.Call.given ++
        WhereClause.allValues (Update.ofCalls table calls).options.patterns
          (Update.ofCalls table calls).clauses) := by
  refine ⟨?numbers, ?insert, ?update⟩
  case numbers =>
    intro s q hraw h
    refine ⟨?_, values_of_build hraw h⟩
    rw [names_of_build hraw h, Allocator.names, List.range'_eq_map_range, List.map_map]
    rfl
  case insert =>
    intro table calls q h
    obtain ⟨a, hrender, -⟩ := build_ok h
    rw [values_of_build (by simp) h]
    exact Insert.given_ofCalls (Insert.render_ok hrender).1
  case update =>
    intro table calls q h
    obtain ⟨a, hrender, -⟩ := build_ok h
    rw [values_of_build (by simp) h, values, Update.given_ofCalls (Update.render_ok hrender).1]

/-- A value compared with a subquery, a list and a bound pattern, from the last number of 64 bits
on; and calls that give values. -/
theorem params_of_build_nested :
    (let s : Statement := .update {
        target := { table := some "t" }
        sets := [("a", .int 1), ("b", .null)]
        clauses := [
          ⟨.group .or [
            .subquery {
              fields := [.column "*"]
              tables := ["u"]
              clauses := [⟨.inList "c" .isIn [.int 4, .int 5], []⟩] } .gt (.int 3),
            .pattern "d" .like "x"],
          [.raw "e = 1"]⟩]
        options := { patterns := .bound, firstPlaceholder := 18446744073709551615 } }
      ∃ q, s.build = .ok q ∧
        q.params.entries.map (·.1) = ["$18446744073709551615", "$18446744073709551616",
          "$18446744073709551617", "$18446744073709551618", "$18446744073709551619",
          "$18446744073709551620"] ∧
        q.params.values = [.int 1, .null, .int 3, .int 4, .int 5, .text "x"]) ∧
    (∃ q, (Statement.insert (.ofCalls "t" [.value "a" (.int 1), .values [("b", .null)]])).build
        = .ok q ∧ q.params.values = [.int 1, .null]) ∧
    (∃ q, (Statement.update (.ofCalls "t" [.filters [.raw "b"], .set "a" (.int 1)])).build
        = .ok q ∧ q.params.values = [.int 1]) := by
  refine ⟨?update, ?values, ?sets⟩
  case update =>
    intro s
    have hraw : ∀ r, s ≠ .raw r := fun r h => Statement.noConfusion h
    obtain ⟨q, hq⟩ : ∃ q, s.build = .ok q := ⟨_, rfl⟩
    obtain ⟨hnames, hvalues⟩ := params_of_build.1 s q hraw hq
    exact ⟨q, hq, hnames.trans (by decide +kernel), hvalues⟩
  case values =>
    have h : (Statement.insert (.ofCalls "t" [.value "a" (.int 1), .values [("b", .null)]])).build
        = .ok ⟨"INSERT INTO \"t\" (\"a\", \"b\") VALUES ($0, $1)",
          ⟨[("$0", .int 1), ("$1", .null)]⟩⟩ := by decide +kernel
    exact ⟨_, h, params_of_build.2.1 _ _ _ h⟩
  case sets =>
    have h : (Statement.update (.ofCalls "t" [.filters [.raw "b"], .set "a" (.int 1)])).build
        = .ok ⟨"UPDATE \"t\" SET \"a\" = $0 WHERE b", ⟨[("$0", .int 1)]⟩⟩ := by decide +kernel
    exact ⟨_, h, (params_of_build.2.2 _ _ _ h).trans (by decide +kernel)⟩

end Statement

end SqlAssembly

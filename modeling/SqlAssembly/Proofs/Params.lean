import SqlAssembly.Proofs.Json.Document
import SqlAssembly.Proofs.Statement.Values

namespace SqlAssembly

/-!
# Parameters as JSON

The JSON form of the parameters says all of them: names and values come back from its text in their
order, repeated names included, each value as what it was.  Only a double need not come back, since
the text of an infinity or of NaN is that of a null.

* `Value.ofJson?_toJson`, `Params.ofJson?_toJson` — the plain forms are read back, doubles included;
* `Params.exact_toJson` — the text says all of the parameters if there are no doubles;
* `Params.parse_toJson` — parameters come back from their text, and those of a statement that is
  built have different names.
-/

namespace Value

variable {v : Value}

/-- The plain form of a value is read back, that of a double included. -/
theorem ofJson?_toJson (v : Value) : ofJson? v.toJson = some v := by
  cases v with
  | int n =>
    -- an integer of 64 bits is within the bounds, so it is what it was
    have hsigned : Json.signed64? n.toInt = some n := by
      rw [Json.signed64?, if_pos ⟨n.minValue_le_toInt, n.toInt_le⟩, Int64.ofInt_toInt]
    rw [toJson, ofJson?, hsigned]
  | null | bool | float | text => rfl

/-- The text of a value says all of it, unless it is a double. -/
theorem exact_toJson (h : ∀ x, v ≠ .float x) : v.toJson.Exact := by
  cases v with
  | int n =>
    have hsize : (2 : Int) ^ 63 < UInt64.size := by decide
    exact ⟨n.minValue_le_toInt, Int.lt_trans n.toInt_lt hsize⟩
  | float x => exact absurd rfl (h x)
  | null | bool | text => trivial

end Value

namespace Params

/-- The plain form of the parameters is read back entry by entry. -/
theorem ofJson?_toJson (p : Params) : ofJson? p.toJson = some p := by
  -- reading behind writing is the identity on every entry
  have hentry : ((fun m => (Value.ofJson? m.2).map (m.1, ·)) ∘ fun e : String × Value =>
      (e.1, e.2.toJson)) = fun e => pure (id e) :=
    funext fun e => congrArg (Option.map (e.1, ·)) (Value.ofJson?_toJson e.2)
  rw [toJson, ofJson?, List.mapM_map, hentry, List.mapM_pure, List.map_id]
  rfl

/-- The text of the parameters says all of them if it does so for each value. -/
theorem exact_toJson {p : Params} (h : ∀ v ∈ p.values, ∀ x, v ≠ .float x) : p.toJson.Exact := by
  obtain ⟨entries⟩ := p
  show Json.ExactMembers (entries.map fun e => (e.1, e.2.toJson))
  induction entries with
  | nil => trivial
  | cons e rest ih =>
    exact ⟨Value.exact_toJson (h e.2 List.mem_cons_self),
      ih fun v hv => h v (List.mem_cons_of_mem _ hv)⟩

/-- Without doubles the parameters come back from the text of their JSON form.  In those of a
statement that is not written by hand no name is repeated. -/
theorem parse_toJson :
    (∀ p : Params, (∀ v ∈ p.values, ∀ x, v ≠ .float x) →
      (Json.parse p.toJson.render).bind ofJson? = some p) ∧
    (∀ (s : Statement) (q : BuiltQuery), (∀ r, s ≠ .raw r) → s.build = .ok q →
      (q.params.entries.map (·.1)).Nodup) := by
  constructor
  · intro p hp
    rw [Json.parse_render (exact_toJson hp), Option.bind_some, ofJson?_toJson]
  · intro s q hraw h
    rw [Statement.names_of_build hraw h]
    exact Allocator.names_nodup _ _

/-- Repeated names, texts that look like other values, the first and the last integer, and all ways
of writing a character; and a query that binds values inside a list and a subquery. -/
theorem parse_toJson_lookalikes :
    (∃ p : Params,
      p.entries = [
        ("k", .text "null"),
        ("k", .text "-1"),
        ("", .null),
        ("k", .int (-9223372036854775808)),
        ("$0", .int 9223372036854775807),
        ("\"\\/\t\x01", .text "\"\\\n\x1f\x7fé😀"),
        ("\x7b", .bool true)] ∧
      p.toJson.render = "\x7b" ++
        "\"k\":\"null\",\"k\":\"-1\",\"\":null,\"k\":-9223372036854775808," ++
        "\"$0\":9223372036854775807,\"\\\"\\\\/\\t\\u0001\":\"\\\"\\\\\\n\\u001f\x7fé😀\"," ++
        "\"\x7b\":true\x7d" ∧
      (Json.parse p.toJson.render).bind ofJson? = some p) ∧
    (let s : Statement := .select {
        fields := [.column "*"]
        tables := ["t"]
        clauses := [
          ⟨.subquery {
              fields := [.column "*"]
              tables := ["u"]
              clauses := [⟨.inList "c" .isIn [.int 4, .int 5], []⟩] } .gt (.int 3), []⟩] }
      ∃ q, s.build = .ok q ∧ (q.params.entries.map (·.1)).Nodup) := by
  refine ⟨?text, ?select⟩
  case text =>
    refine ⟨⟨_⟩, rfl, by decide +kernel, parse_toJson.1 _ ?_⟩
    rintro v hv x rfl
    simp [values] at hv
  case select =>
    intro s
    obtain ⟨q, hq⟩ : ∃ q, s.build = .ok q := ⟨_, rfl⟩
    exact ⟨q, hq, parse_toJson.2 s q (fun r h => Statement.noConfusion h) hq⟩

end Params

end SqlAssembly

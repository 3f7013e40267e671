import SqlAssembly.Json.Reader

namespace SqlAssembly

/-!
# Results without rows
-/

/-- What an engine tells about a statement that was run for its effect. -/
structure RunResult where
  /-- The number of rows that were changed. -/
  changes : UInt64 := 0
  /-- The row that was inserted last, if the engine knows it. -/
  lastInsertId : Option Int64 := none
  deriving DecidableEq, Repr

namespace RunResult

/-- The JSON form. -/
def toJson (r : RunResult) : Json :=
  .obj [("changes", .int r.changes.toNat),
    ("last_insert_id", match r.lastInsertId with
      | none => .null
      | some id => .int id.toInt)]

/-- The number of changes that a document is. -/
def changesOf? (v : Json.Node) : Option UInt64 := v.value?.bind Json.word?

/-- The row number that a document is, or null. -/
def rowIdOf? (v : Json.Node) : Option (Option Int64) := do
  match ← v.value? with
  | .null => return none
  | v => v.int64?.map some

/-- The result of a document: an object, or the two parts in an array.  The number of changes must
be there; in an object, members of other names are not looked at. -/
def ofNode? : Json.Node → Option RunResult
  | .array [changes, id] => do
    let changes ← changesOf? changes
    let id ← rowIdOf? id
    return ⟨changes, id⟩
  | v => do
    let members ← v.members?
    let changes ← Json.only? "changes" members
    let id ← Json.only? "last_insert_id" members
    let changes ← changes.bind changesOf?
    let id ← id.mapM rowIdOf?
    return ⟨changes, id.getD none⟩

/-- The result of a JSON text. -/
def ofJsonText? (s : String) : Option RunResult := (Json.Node.parse s).bind ofNode?

end RunResult

end SqlAssembly

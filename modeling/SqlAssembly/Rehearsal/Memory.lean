import SqlAssembly.Rehearsal.Journal

namespace SqlAssembly.Rehearsal

/-!
# The engine of a rehearsal

An engine that gives the same rows to every statement, and fails where it is told to.
-/

/-- A failure on texts that contain a part. -/
structure Failure where
  part : String
  text : String
  deriving DecidableEq, Repr

/-- The part occurs in a text. -/
def occurs (part : List Char) : List Char → Bool
  | [] => part.isEmpty
  | c :: s => part.isPrefixOf (c :: s) || occurs part s

/-- The error on a text, if there shall be one. -/
def Failure.on? (f : Failure) (sql : String) : Option Error :=
  if occurs f.part.toList sql.toList then some (.execution f.text) else none

/-- What the engine answers. -/
structure Memory where
  rows : List Row := []
  /-- The number of changes, or else the number of parameters is taken. -/
  changes : Option UInt64 := none
  lastInsertId : Option Int64 := none
  failPrepare : Option Failure := none
  failRun : Option Failure := none

namespace Memory

/-- The answer to a call. -/
def answer (m : Memory) (params : Params) : (c : Call) → c.Answer
  | .get => m.rows.head?
  | .all => m.rows
  | .run => ⟨m.changes.getD params.length.toUInt64, m.lastInsertId⟩

/-- The engine; a prepared statement is its text. -/
def engine (m : Memory) : Engine Stage String where
  prepare sql := do
    modify (Stage.note (.prepared sql))
    match m.failPrepare.bind (·.on? sql) with
    | some e => return .error e
    | none =>
      modify fun s => { s with prepared := s.prepared + 1 }
      return .ok sql
  execute c sql params := do
    modify (Stage.note (.called c sql params))
    match m.failRun.bind (·.on? sql) with
    | some e => return (.error e, sql)
    | none => return (.ok (m.answer params c), sql)

end Memory

end SqlAssembly.Rehearsal

import SqlAssembly.Identifier.Segment

namespace SqlAssembly

/-!
# Qualified names

The dotted name of a column or a table, with an optional alias.

* `QualifiedName` — the names, unquoted;
* `QualifiedName.sql` — its SQL text, every name quoted;
* `QualifiedName.parse` — reads `[[schema.]table.]column [[AS] alias]` or
  `[schema.]table [[AS] alias]`;
* `QualifiedName.quoteTable` — the SQL text of a table expression.
-/

/-- A dotted name with an optional alias.  The names are unquoted. -/
structure QualifiedName where
  parts : List String
  alias? : Option String := none
  deriving DecidableEq, Repr

/-- What a qualified name names. -/
inductive NameRole where
  | column
  | table
  deriving DecidableEq, Repr

namespace NameRole

/-- How many names may be joined by points. -/
def maxParts : NameRole → Nat
  | .column => 3
  | .table => 2

/-- Nothing is named. -/
def blank : NameRole → String → Error
  | .column => .blankColumn
  | .table => .blankTable

/-- The text is of another shape. -/
def shape : NameRole → String → Error
  | .column => .columnShape
  | .table => .tableShape

end NameRole

/-- The text ` AS ` with the quoted alias, or nothing. -/
def aliasSql : Option String → String
  | none => ""
  | some name => " AS " ++ Identifier.quoted name

namespace QualifiedName

/-- The SQL text, every name quoted. -/
def sql (q : QualifiedName) : String :=
  ".".intercalate (q.parts.map Identifier.quoted) ++ aliasSql q.alias?

/-- Reads one to `n` segments with points between them. -/
def readPath : Nat → List Char → Option (List Segment × List Char)
  | 0, _ => none
  | n + 1, s =>
    match Segment.read s with
    | none => none
    | some (segment, '.' :: rest) =>
      (readPath n rest).map fun r => (segment :: r.1, r.2)
    | some (segment, rest) => some ([segment], rest)

/-- Reads a path of up to `n` segments and its alias. -/
def readParts (n : Nat) (s : List Char) : Option (List Segment × Option Segment) := do
  let (path, rest) ← readPath n (Text.skipBlanks s)
  let alias? ← Segment.readAlias rest
  return (path, alias?)

/-- The name of a segment, unless it is refused as written. -/
def segmentName (segment : Segment) : Except Error String := do
  Identifier.check segment.text
  return String.ofList segment.name

/-- The names of a path and its alias, in this order. -/
def ofSegments (path : List Segment) (alias? : Option Segment) : Except Error QualifiedName := do
  let parts ← path.mapM segmentName
  let alias? ← alias?.mapM segmentName
  return ⟨parts, alias?⟩

/-- The qualified name of a text. -/
def parse (role : NameRole) (s : List Char) : Except Error QualifiedName :=
  if Text.allBlank s then .error (role.blank (String.ofList s))
  else
    match readParts role.maxParts s with
    | some (path, alias?) => ofSegments path alias?
    | none => .error (role.shape (String.ofList s))

/-- The qualified name of a column. -/
def parseColumn (expr : String) : Except Error QualifiedName := parse .column expr.toList

/-- The qualified name of a table. -/
def parseTable (expr : String) : Except Error QualifiedName := parse .table expr.toList

/-- The SQL text of a table expression. -/
def quoteTable (expr : String) : Except Error String := (parseTable expr).map sql

end QualifiedName

end SqlAssembly

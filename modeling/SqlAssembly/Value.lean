import SqlAssembly.Json.Reader

namespace SqlAssembly

/-!
# Scalar values

The values that are bound to placeholders.

* `Value` — null, booleans, 64-bit integers, doubles and texts;
* `Value.display` — the text for people;
* `Value.toJson`, `Value.ofJson?` — the plain JSON form, and reading it back.
-/

/-- A scalar value bound to a placeholder. -/
inductive Value where
  | null
  | bool (b : Bool)
  | int (n : Int64)
  | float (x : Binary64)
  | text (s : String)
  deriving DecidableEq, Repr

namespace Value

/-- The text payload, if the value is a text. -/
def asText? : Value → Option String
  | .text s => some s
  | _ => none

def isNull : Value → Bool
  | .null => true
  | _ => false

/-- The name of the value's type in messages. -/
def typeName : Value → String
  | .null => "null"
  | .bool _ => "boolean"
  | .int _ => "integer"
  | .float _ => "float"
  | .text _ => "string"

/-- All positions are always written, a whole number without a point, and a half goes up. -/
def displayNumbers : Layout where
  tie := .up
  positional _ := true
  wholeSuffix := ""
  plusSign := ""

/-- The text of a double for people. -/
def displayFloat (x : Binary64) : String :=
  if x.isFinite then displayNumbers.text x
  else if x.isNaN then "NaN"
  else if x.isNegative then "-inf"
  else "inf"

/-- The text of a value for people.  Quotes inside a text are not doubled. -/
def display : Value → String
  | .null => "NULL"
  | .bool b => if b then "true" else "false"
  | .int n => toString n.toInt
  | .float x => displayFloat x
  | .text s => "'" ++ s ++ "'"

/-- The plain JSON form of a value. -/
def toJson : Value → Json
  | .null => .null
  | .bool b => .bool b
  | .int n => .int n.toInt
  | .float x => .real x
  | .text s => .str s

/-- The value of a plain JSON form.  Integers beyond 64 bits with sign are taken as doubles. -/
def ofJson? : Json → Option Value
  | .null => some .null
  | .bool b => some (.bool b)
  | .int n =>
    match Json.signed64? n with
    | some n => some (.int n)
    | none => some (.float ((Binary64.ofNat n.natAbs).signed (n < 0)))
  | .real x => some (.float x)
  | .str s => some (.text s)
  | .arr _ => none
  | .obj _ => none

/-- The value of a JSON text. -/
def ofJsonText? (s : String) : Option Value := (Json.parse s).bind ofJson?

end Value

end SqlAssembly

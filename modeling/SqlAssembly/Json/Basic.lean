import SqlAssembly.Number.Layout

namespace SqlAssembly

/-!
# JSON values and their text

A JSON value tells integers from other numbers, and an object keeps its members in order, with
whatever names are repeated.

* `Json` — the values;
* `Json.numbers` — how the numbers that are no integers are laid out;
* `Json.render` — the text without spaces.
-/

/-- A JSON value. -/
inductive Json where
  | null
  | bool (b : Bool)
  | int (n : Int)
  | real (x : Binary64)
  | str (s : String)
  | arr (items : List Json)
  | obj (members : List (String × Json))

namespace Json

/-- All positions are written from 0.00001 up to sixteen digits before the point, a number is
never written as an integer, and a half goes to the even digit. -/
def numbers : Layout where
  tie := .toEven
  positional e := -5 ≤ e && e < 16
  wholeSuffix := ".0"
  plusSign := "+"

/-- The digit of the value `n` below 16. -/
def hexDigit (n : Nat) : Char := (Nat.digitChar n)

/-- One character inside the quotes. -/
def renderChar (c : Char) : List Char :=
  if c == '"' then ['\\', '"']
  else if c == '\\' then ['\\', '\\']
  else if c == '\x08' then ['\\', 'b']
  else if c == '\x0c' then ['\\', 'f']
  else if c == '\n' then ['\\', 'n']
  else if c == '\r' then ['\\', 'r']
  else if c == '\t' then ['\\', 't']
  else if c.toNat < 0x20 then
    ['\\', 'u', '0', '0', hexDigit (c.toNat / 16), hexDigit (c.toNat % 16)]
  else [c]

/-- A text in quotes. -/
def renderText (s : String) : String :=
  String.ofList ('"' :: s.toList.flatMap renderChar ++ ['"'])

/-- A number that is no integer; there is none for infinities and NaN. -/
def renderReal (x : Binary64) : String := if x.isFinite then numbers.text x else "null"

mutual

/-- The text of a value. -/
def render : Json → String
  | .null => "null"
  | .bool b => if b then "true" else "false"
  | .int n => toString n
  | .real x => renderReal x
  | .str s => renderText s
  | .arr items => "[" ++ renderItems items ++ "]"
  | .obj members => "\x7b" ++ renderMembers members ++ "\x7d"

/-- The texts of the items between commas. -/
def renderItems : List Json → String
  | [] => ""
  | [v] => render v
  | v :: w :: rest => render v ++ "," ++ renderItems (w :: rest)

/-- The names and texts of the members between commas. -/
def renderMembers : List (String × Json) → String
  | [] => ""
  | [(name, v)] => renderText name ++ ":" ++ render v
  | (name, v) :: m :: rest =>
    renderText name ++ ":" ++ render v ++ "," ++ renderMembers (m :: rest)

end

end Json

end SqlAssembly

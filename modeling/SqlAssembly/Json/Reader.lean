import SqlAssembly.Json.Basic
import SqlAssembly.Json.Node

namespace SqlAssembly.Json

/-!
# Reading JSON

What the leaves of a document stand for.  An integer is read exactly; any other number is read
from its leading digits, as many as make an integer below `2 ^ 64`, and one multiplication or
division by a power of ten.

* `NumberText.value?` — the number, unless it is too large for a double;
* `decodeUnits?` — the text, unless half of a surrogate pair stands alone;
* `parse` — the value of a text;
* `Node.members?` — the members of an object, their values not yet interpreted.
-/

/-! ### Numbers -/

/-- The value of a decimal digit. -/
def digitValue (c : Char) : Nat := c.toNat - '0'.toNat

/-- Goes on reading digits while the integer stays below `2 ^ 64`; also the number of digits
that are left over. -/
def readWhole (n : Nat) : List Char → Nat × Nat
  | [] => (n, 0)
  | c :: s =>
    let m := n * 10 + digitValue c
    if m < UInt64.size then readWhole m s else (n, s.length + 1)

/-- Goes on reading digits while the integer stays below `2 ^ 64`; also the number of digits
that were read. -/
def readPlaces (n : Nat) : List Char → Nat × Nat
  | [] => (n, 0)
  | c :: s =>
    let m := n * 10 + digitValue c
    if m < UInt64.size then
      let (value, places) := readPlaces m s
      (value, places + 1)
    else (n, 0)

/-- Multiplies by `10 ^ e`, in steps of `10 ^ 308` when it has to divide by more.  There is no
result if it is too large for a double. -/
def scaled? (x : Binary64) (e : Int) : Option Binary64 :=
  if e.natAbs ≤ 308 then
    let power := Binary64.ofNat (Nat.pow 10 e.natAbs)
    if e < 0 then some (x.div power)
    else if (x.mul power).isFinite then some (x.mul power) else none
  else if x.isZero then some x
  else if 0 ≤ e then none
  else scaled? (x.div (Binary64.ofNat (Nat.pow 10 308))) (e + 308)
termination_by e.natAbs
decreasing_by omega

/-- The integer that the digits of an exponent stand for, with its sign. -/
def exponentValue : Option (Bool × List Char) → Int
  | none => 0
  | some (minus, digits) =>
    let n : Int := (digits.foldl (fun n c => n * 10 + digitValue c) 0 : Nat)
    if minus then -n else n

/-- The number that a numeral stands for.  Integers from `-2 ^ 63` up to `2 ^ 64 - 1` are exact,
apart from the negative zero. -/
def NumberText.value? (t : NumberText) : Option Json :=
  let (whole, left) := readWhole 0 t.whole
  if left = 0 ∧ t.fraction = [] ∧ t.exponent = none then
    if !t.negative then some (.int whole)
    else if whole = 0 ∨ (-whole : Int) < Int64.minValue.toInt then
      some (.real (Binary64.ofNat whole).neg)
    else some (.int (-whole))
  else
    let (digits, places) := readPlaces whole t.fraction
    (scaled? (Binary64.ofNat digits) (left - places + exponentValue t.exponent)).map fun x =>
      .real (x.signed t.negative)

/-! ### Texts -/

/-- The characters of a string; a surrogate pair makes one character. -/
def decodeUnits? : List TextUnit → Option (List Char)
  | [] => some []
  | .char c :: units => (decodeUnits? units).map (c :: ·)
  | .code high :: .code low :: units =>
    if 0xD800 ≤ high ∧ high < 0xDC00 then
      if 0xDC00 ≤ low ∧ low < 0xE000 then
        (decodeUnits? units).map
          (Char.ofNat (0x10000 + (high - 0xD800) * 0x400 + (low - 0xDC00)) :: ·)
      else none
    else if 0xDC00 ≤ high ∧ high < 0xE000 then none
    else (decodeUnits? (.code low :: units)).map (Char.ofNat high :: ·)
  | .code n :: units =>
    if 0xD800 ≤ n ∧ n < 0xE000 then none
    else (decodeUnits? units).map (Char.ofNat n :: ·)

/-- The text of a string. -/
def text? (units : List TextUnit) : Option String := (decodeUnits? units).map String.ofList

/-! ### Documents -/

mutual

/-- The value that a document stands for. -/
def Node.value? : Node → Option Json
  | .null => some .null
  | .bool b => some (.bool b)
  | .number n => n.value?
  | .text units => (text? units).map .str
  | .array items => (itemValues? items).map .arr
  | .object members => (memberValues? members).map .obj

/-- The values of the items. -/
def itemValues? : List Node → Option (List Json)
  | [] => some []
  | v :: rest => do
    let v ← v.value?
    let rest ← itemValues? rest
    return v :: rest

/-- The names and values of the members. -/
def memberValues? : List (List TextUnit × Node) → Option (List (String × Json))
  | [] => some []
  | (name, v) :: rest => do
    let name ← text? name
    let v ← v.value?
    let rest ← memberValues? rest
    return (name, v) :: rest

end

/-- The value of a JSON text. -/
def parse (s : String) : Option Json := (Node.parse s).bind Node.value?

/-- The members of an object by name, their values as written. -/
def Node.members? : Node → Option (List (String × Node))
  | .object members => members.mapM fun m => (text? m.1).map (·, m.2)
  | _ => none

/-- The only member of a name.  The outer option is empty if there are several. -/
def only? (name : String) (members : List (String × Node)) : Option (Option Node) :=
  match members.filter (·.1 == name) with
  | [] => some none
  | [m] => some (some m.2)
  | _ => none

/-- The integer that a value is. -/
def int? : Json → Option Int
  | .int n => some n
  | _ => none

/-- The integer as one of 64 bits with sign. -/
def signed64? (n : Int) : Option Int64 :=
  if Int64.minValue.toInt ≤ n ∧ n ≤ Int64.maxValue.toInt then some (Int64.ofInt n) else none

/-- The integer of 64 bits with sign that a value is. -/
def int64? (v : Json) : Option Int64 := v.int?.bind signed64?

/-- The integer of 64 bits without sign that a value is. -/
def word? (v : Json) : Option UInt64 := do
  let n ← v.int?
  if 0 ≤ n ∧ n < UInt64.size then some n.toNat.toUInt64 else none

/-- The text that a value is. -/
def str? : Json → Option String
  | .str s => some s
  | _ => none

end SqlAssembly.Json

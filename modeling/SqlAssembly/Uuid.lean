import SqlAssembly.Text.Hex
import SqlAssembly.Text.Runs

namespace SqlAssembly

/-!
# Universally unique identifiers

* `Uuid.parse` — reads 32 hex digits, alone or in groups, the groups also in braces or as a URN, in
  either case;
* `Uuid.text` — five groups of lower case digits between hyphens.
-/

/-- The 128 bits of an identifier. -/
structure Uuid where
  value : BitVec 128
  deriving DecidableEq, Repr

namespace Uuid

/-- The identifier of 32 hex digits. -/
def ofDigits? (s : List Char) : Option Uuid :=
  if s.length = 32 then
    (s.mapM Text.hexValue?).map fun ds => ⟨BitVec.ofNat 128 (ds.foldl (fun n d => n * 16 + d) 0)⟩
  else none

/-- The identifier of the groups of 8, 4, 4, 4 and 12 digits. -/
def ofGroups? (s : List Char) : Option Uuid :=
  let groups := Text.pieces (· == '-') s
  if groups.map List.length = [8, 4, 4, 4, 12] then ofDigits? groups.flatten else none

/-- The identifier of a text. -/
def parse (s : String) : Option Uuid :=
  let cs := s.toList
  if cs.length = 32 then ofDigits? cs
  else if cs.length = 36 then ofGroups? cs
  else if cs.head? = some '\x7b' ∧ cs.getLast? = some '\x7d' then ofGroups? cs.tail.dropLast
  else if (cs.take 9).map Char.toLower = "urn:uuid:".toList then ofGroups? (cs.drop 9)
  else none

/-- The identifier in groups of lower case digits. -/
def text (u : Uuid) : String :=
  let ds := Nat.toDigits 16 u.value.toNat
  let ds := List.replicate (32 - ds.length) '0' ++ ds
  let group (start length : Nat) := String.ofList ((ds.drop start).take length)
  group 0 8 ++ "-" ++ group 8 4 ++ "-" ++ group 12 4 ++ "-" ++ group 16 4 ++ "-" ++ group 20 12

end Uuid

end SqlAssembly

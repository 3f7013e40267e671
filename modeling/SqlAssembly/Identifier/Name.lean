import SqlAssembly.Error
import SqlAssembly.Text.Quoted

namespace SqlAssembly

/-!
# Quoted names

Every name reaches a statement between double quotes.  A name that is already written so is taken
for what it says.

* `Identifier.decode` — the name that a text stands for;
* `Identifier.check` — refuses a text for itself, or for the name between its quotes;
* `Identifier.quote` — the quoted form of a name that is not refused.
-/

namespace Identifier

/-- The name between the quotes, if the text is a well-formed quoted name; it is not empty. -/
def quotedName? (s : List Char) : Option (List Char) :=
  (Text.unquote? '"' s).filter (fun name => !name.isEmpty)

/-- The name that a text stands for. -/
def decode (s : List Char) : List Char := (quotedName? s).getD s

/-- Refuses a text for itself first, then for the name it stands for. -/
def check (s : List Char) : Except Error Unit :=
  match Denial.of? s <|> Denial.of? (decode s) with
  | some denial => .error (.denied (String.ofList s) denial)
  | none => .ok ()

/-- A name between double quotes, the quotes inside doubled. -/
def quoted (name : String) : String := String.ofList (Text.quoted '"' name.toList)

/-- The quoted form of a name.  A well-formed quoted name is its own quoted form. -/
def quote (name : String) : Except Error String := do
  check name.toList
  return if (quotedName? name.toList).isSome then name else quoted name

end Identifier

end SqlAssembly

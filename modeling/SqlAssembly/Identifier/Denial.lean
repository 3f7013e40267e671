import SqlAssembly.Text.Blank
import SqlAssembly.Text.Fold
import SqlAssembly.Text.Runs
import SqlAssembly.Text.WordChar

namespace SqlAssembly

/-!
# Names that are refused

A name that ends a statement, or that holds one of seven keywords as a whole word, is refused
wherever it stands, even between quotes.

* `Denial` — the reasons, in the order in which they are tried;
* `Denial.pattern` — the regular expression that says the same;
* `Denial.applies` — whether a reason applies to a text;
* `Denial.of?` — the first reason that does.
-/

/-- A reason to refuse a name. -/
inductive Denial where
  | terminator
  | union
  | drop
  | delete
  | update
  | insert
  | alter
  | exec
  deriving DecidableEq, Repr

namespace Denial

/-- All reasons, in order. -/
def all : List Denial :=
  [.terminator, .union, .drop, .delete, .update, .insert, .alter, .exec]

/-- The keyword that must not be a word of the name. -/
def keyword? : Denial → Option String
  | .terminator => none
  | .union => some "UNION"
  | .drop => some "DROP"
  | .delete => some "DELETE"
  | .update => some "UPDATE"
  | .insert => some "INSERT"
  | .alter => some "ALTER"
  | .exec => some "EXEC"

/-- The reason as a regular expression. -/
def pattern (d : Denial) : String :=
  match d.keyword? with
  | none => ";\\s*$"
  | some keyword => "(?i)\\b" ++ keyword ++ "\\b"

/-- The reason applies: nothing but blanks follows the last semicolon, or a maximal run of word
characters is the keyword. -/
def applies (d : Denial) (s : List Char) : Bool :=
  match d.keyword? with
  | none => (Text.trimEnd s).getLast? == some ';'
  | some keyword => (Text.runs Text.isWordChar s).any (Text.isKeyword keyword)

/-- The first reason that applies to a text. -/
def of? (s : List Char) : Option Denial := all.find? (·.applies s)

end Denial

end SqlAssembly

import SqlAssembly.Text.Blank

namespace SqlAssembly

/-!
# The verb of a statement

What a statement does is told from its first keyword, behind blanks, comments and opening
parentheses.

* `Verb.skipLead` — the text from its first keyword;
* `Verb.startsWith` — a text begins with a keyword;
* `Verb.ofSql` — the verb of a text.
-/

/-- What a statement does. -/
inductive Verb where
  | select
  | insert
  | update
  | delete
  | other
  deriving DecidableEq, Repr

namespace Verb

mutual

/-- The text behind leading blanks, comments and opening parentheses.  The star that opens a block
comment may also be the one that closes it. -/
def skipLead : List Char → List Char
  | [] => []
  | '-' :: '-' :: s => skipLine s
  | '/' :: '*' :: s => skipBlock true s
  | '(' :: s => skipLead s
  | c :: s => if Text.isBlank c then skipLead s else c :: s

/-- The text behind the end of the line. -/
def skipLine : List Char → List Char
  | [] => []
  | c :: s => if c = '\n' then skipLead s else skipLine s

/-- The text behind the end of a block comment; `star` if a star was read last. -/
def skipBlock (star : Bool) : List Char → List Char
  | [] => []
  | c :: s => if star && c = '/' then skipLead s else skipBlock (c = '*') s

end

/-- The text begins with the keyword, in any ASCII case, and no ASCII letter, digit or underscore
follows. -/
def startsWith (keyword : String) (s : List Char) : Bool :=
  let k := keyword.toList
  (s.take k.length).map Char.toUpper == k &&
    match (s.drop k.length).head? with
    | none => true
    | some c => !(c.isAlphanum || c == '_')

/-- The keyword of a verb. -/
def keyword? : Verb → Option String
  | .select => some "SELECT"
  | .insert => some "INSERT"
  | .update => some "UPDATE"
  | .delete => some "DELETE"
  | .other => none

/-- The verb of a text. -/
def ofSql (sql : String) : Verb :=
  let s := skipLead sql.toList
  if startsWith "SELECT" s then .select
  else if startsWith "INSERT" s then .insert
  else if startsWith "UPDATE" s then .update
  else if startsWith "DELETE" s then .delete
  else .other

/-- The name of a verb in log lines. -/
def name : Verb → String
  | .select => "Select"
  | .insert => "Insert"
  | .update => "Update"
  | .delete => "Delete"
  | .other => "Other"

end Verb

end SqlAssembly

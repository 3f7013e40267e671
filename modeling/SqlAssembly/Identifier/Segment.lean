import SqlAssembly.Identifier.Name

namespace SqlAssembly

/-!
# Segments of a dotted name

A segment is a bare word or a quoted name; an alias is one more segment, behind blanks and perhaps
the word `AS`.

* `Segment`, `Segment.read` — a segment, and reading the longest one;
* `Segment.readAlias` — what may follow a column, a table or a call.
-/

/-- One name as written. -/
inductive Segment where
  | bare (name : List Char)
  | quoted (name : List Char)
  deriving DecidableEq, Repr

namespace Segment

/-- The name that is meant. -/
def name : Segment → List Char
  | .bare name => name
  | .quoted name => name

/-- The text of a segment. -/
def text : Segment → List Char
  | .bare name => name
  | .quoted name => Text.quoted '"' name

/-- A bare word may begin with this character. -/
def isHead (c : Char) : Bool := Text.isLetter c || c == '_'

/-- A bare word may go on with this character. -/
def isTail (c : Char) : Bool := isHead c || c.isDigit || c == '$'

/-- The longest segment at the start of a text, and what follows. -/
def read : List Char → Option (Segment × List Char)
  | [] => none
  | c :: s =>
    if c = '"' then
      match Text.closeQuote '"' s with
      | some (d :: name, rest) => some (.quoted (d :: name), rest)
      | _ => none
    else if isHead c then some (.bare (c :: s.takeWhile isTail), s.dropWhile isTail)
    else none

/-- The segment that fills the text up to trailing blanks. -/
def readLast (s : List Char) : Option Segment :=
  match read s with
  | some (segment, rest) => if Text.allBlank rest then some segment else none
  | none => none

/-- What follows the word `AS` and the blanks after it. -/
def afterAs : List Char → Option (List Char)
  | a :: s :: c :: rest =>
    if Text.isKeyword "AS" [a, s] && Text.isBlank c then some (Text.skipBlanks rest) else none
  | _ => none

/-- Reads an optional alias that goes up to the end of the text.  A lone `AS` is an alias itself.
The outer option is empty if the text is anything else. -/
def readAlias (s : List Char) : Option (Option Segment) :=
  if Text.allBlank s then some none
  else
    match s with
    | [] => some none
    | c :: rest =>
      if Text.isBlank c then
        let rest := Text.skipBlanks rest
        match (afterAs rest).bind readLast with
        | some segment => some (some segment)
        | none => (readLast rest).map some
      else none

end Segment

end SqlAssembly

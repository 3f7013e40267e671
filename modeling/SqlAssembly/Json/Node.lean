import SqlAssembly.Json.Token

namespace SqlAssembly.Json

/-!
# JSON documents

The tree of a JSON text with its leaves as written.  It is built token by token on a stack of the
arrays and objects that are still open.

* `Node` — the tree;
* `Builder.step` — the state after one more token;
* `Node.parse` — the tree of a text that is one JSON document.
-/

/-- A JSON document, its numbers and strings as written. -/
inductive Node where
  | null
  | bool (b : Bool)
  | number (n : NumberText)
  | text (units : List TextUnit)
  | array (items : List Node)
  | object (members : List (List TextUnit × Node))

namespace Node

/-- An array or object that is still open, its parts so far in reverse. -/
inductive Frame where
  | array (items : List Node)
  | object (members : List (List TextUnit × Node))
  | member (members : List (List TextUnit × Node)) (name : List TextUnit)

/-- What comes next. -/
inductive Phase where
  /-- a value -/
  | value
  /-- the first item of an array, or its end -/
  | item
  /-- the first name in an object, or its end -/
  | first
  /-- another name in an object -/
  | name
  /-- the colon after a name -/
  | colon
  /-- what follows a value: a comma, a closing bracket or the end of the text -/
  | after (v : Node)

/-- The open frames and what comes next in the innermost one. -/
structure Builder where
  stack : List Frame
  phase : Phase

/-- Starts a value. -/
def Builder.begin (stack : List Frame) : Token → Option Builder
  | .null => some ⟨stack, .after .null⟩
  | .bool b => some ⟨stack, .after (.bool b)⟩
  | .number n => some ⟨stack, .after (.number n)⟩
  | .text units => some ⟨stack, .after (.text units)⟩
  | .openArray => some ⟨.array [] :: stack, .item⟩
  | .openObject => some ⟨.object [] :: stack, .first⟩
  | _ => none

/-- Takes the name of a member. -/
def Builder.named : List Frame → Token → Option Builder
  | .object members :: stack, .text name => some ⟨.member members name :: stack, .colon⟩
  | _, _ => none

/-- Goes on after the value `v`. -/
def Builder.continue (v : Node) : List Frame → Token → Option Builder
  | .array items :: stack, .comma => some ⟨.array (v :: items) :: stack, .value⟩
  | .array items :: stack, .closeArray =>
    some ⟨stack, .after (.array (v :: items).reverse)⟩
  | .member members name :: stack, .comma =>
    some ⟨.object ((name, v) :: members) :: stack, .name⟩
  | .member members name :: stack, .closeObject =>
    some ⟨stack, .after (.object ((name, v) :: members).reverse)⟩
  | _, _ => none

/-- The state after one more token. -/
def Builder.step (b : Builder) (t : Token) : Option Builder :=
  match b.phase with
  | .value => Builder.begin b.stack t
  | .item =>
    match b.stack, t with
    | .array _ :: stack, .closeArray => some ⟨stack, .after (.array [])⟩
    | _, _ => Builder.begin b.stack t
  | .first =>
    match b.stack, t with
    | .object _ :: stack, .closeObject => some ⟨stack, .after (.object [])⟩
    | _, _ => Builder.named b.stack t
  | .name => Builder.named b.stack t
  | .colon => if t = .colon then some ⟨b.stack, .value⟩ else none
  | .after v => Builder.continue v b.stack t

/-- The document, if the text is complete. -/
def Builder.finish? : Builder → Option Node
  | ⟨[], .after v⟩ => some v
  | _ => none

/-- The document that a list of tokens spells. -/
def ofTokens? (ts : List Token) : Option Node :=
  (ts.foldlM Builder.step ⟨[], .value⟩).bind Builder.finish?

/-- The document of a JSON text. -/
def parse (s : String) : Option Node := (tokens s.toList).bind ofTokens?

end Node

end SqlAssembly.Json

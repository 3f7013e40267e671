import SqlAssembly.Json.Reader

namespace SqlAssembly

/-!
# Build options

What a statement is built with.  A statement that is embedded in another one is built with the
options of the outer one.

* `BuildOptions` — how patterns reach the text, and the number of the first placeholder;
* `BuildOptions.toJson`, `BuildOptions.ofJsonText?` — the JSON form, and reading it.
-/

/-- How the pattern of a LIKE condition reaches the text: as a literal, or bound to a
placeholder. -/
inductive PatternMode where
  | inlined
  | bound
  deriving DecidableEq, Repr

/-- The options of a build. -/
structure BuildOptions where
  patterns : PatternMode := .inlined
  firstPlaceholder : UInt64 := 0
  deriving DecidableEq, Repr

namespace PatternMode

/-- The name of a mode in the JSON form. -/
def name : PatternMode → String
  | .inlined => "inline"
  | .bound => "bind"

/-- The mode of a name. -/
def ofName? (s : String) : Option PatternMode :=
  if s = "inline" then some .inlined else if s = "bind" then some .bound else none

end PatternMode

namespace BuildOptions

/-- The JSON form. -/
def toJson (o : BuildOptions) : Json :=
  .obj [("like_values", .str o.patterns.name),
    ("first_placeholder", .int o.firstPlaceholder.toNat)]

/-- The mode that a document names, by a text or by the only member of an object, whose value is
null. -/
def patternsOf? : Json.Node → Option PatternMode
  | .object [(name, .null)] => (Json.text? name).bind PatternMode.ofName?
  | v => (v.value?.bind Json.str?).bind PatternMode.ofName?

/-- The options of two documents.  An absent one stands for the default. -/
def ofParts? (patterns first : Option Json.Node) : Option BuildOptions := do
  let patterns ← patterns.mapM patternsOf?
  let first ← first.mapM fun v => v.value?.bind Json.word?
  return { patterns := patterns.getD .inlined, firstPlaceholder := first.getD 0 }

/-- The options of a document: an object, or the parts in an array, the last of which may be left
out.  In an object, members of other names are not looked at. -/
def ofNode? : Json.Node → Option BuildOptions
  | .array [] => ofParts? none none
  | .array [patterns] => ofParts? (some patterns) none
  | .array [patterns, first] => ofParts? (some patterns) (some first)
  | v => do
    let members ← v.members?
    ofParts? (← Json.only? "like_values" members) (← Json.only? "first_placeholder" members)

/-- The options of a JSON text. -/
def ofJsonText? (s : String) : Option BuildOptions := (Json.Node.parse s).bind ofNode?

end BuildOptions

end SqlAssembly

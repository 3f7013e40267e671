import SqlAssembly.Value

namespace SqlAssembly

/-!
# Parameters

The values of a statement by the names of their placeholders, in the order in which they were
bound.

* `Params.get?` — the first value of a name;
* `Params.toJson` — an object with the members in order, repeated names included.
-/

/-- Names and values in order.  A name may be repeated. -/
structure Params where
  entries : List (String × Value) := []
  deriving DecidableEq, Repr

namespace Params

/-- The first value bound to a name. -/
def get? (p : Params) (name : String) : Option Value :=
  (p.entries.find? (·.1 == name)).map (·.2)

/-- The values in order. -/
def values (p : Params) : List Value := p.entries.map (·.2)

/-- The number of values. -/
def length (p : Params) : Nat := p.entries.length

def isEmpty (p : Params) : Bool := p.entries.isEmpty

/-- The parameters with one more behind them. -/
def push (p : Params) (name : String) (v : Value) : Params := ⟨p.entries ++ [(name, v)]⟩

/-- The parameters as a JSON object. -/
def toJson (p : Params) : Json := .obj (p.entries.map fun e => (e.1, e.2.toJson))

/-- The parameters of a JSON object of plain values. -/
def ofJson? : Json → Option Params
  | .obj members =>
    (members.mapM fun m => (Value.ofJson? m.2).map (m.1, ·)).map Params.mk
  | _ => none

end Params

end SqlAssembly

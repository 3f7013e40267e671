import SqlAssembly.BuildOptions
import SqlAssembly.Error
import SqlAssembly.Params

namespace SqlAssembly

/-!
# Placeholders

One allocator numbers the placeholders of a statement and of everything embedded in it, and keeps
the values that they stand for.  What was bound stays bound when a build fails later on.

* `Allocator` — the next number, the values so far and the options;
* `Render` — a computation that may bind values and may fail;
* `Render.bind` — binds a value to the next placeholder;
* `Render.bindNamed` — binds a value to a name, leaving the numbers alone.
-/

/-- The state of a build. -/
structure Allocator where
  next : Nat
  params : Params := {}
  options : BuildOptions := {}
  deriving DecidableEq, Repr

namespace Allocator

/-- Nothing bound yet; the options say which number comes first. -/
def new (options : BuildOptions := {}) : Allocator :=
  { next := options.firstPlaceholder.toNat, options }

/-- The placeholder of a number. -/
def placeholder (n : Nat) : String := "$" ++ toString n

/-- The allocator after binding a value to its next placeholder. -/
def bind (a : Allocator) (v : Value) : Allocator :=
  { a with next := a.next + 1, params := a.params.push (placeholder a.next) v }

/-- The allocator after binding a value to a name. -/
def bindNamed (a : Allocator) (name : String) (v : Value) : Allocator :=
  { a with params := a.params.push name v }

end Allocator

/-- Renders a part of a statement.  The allocator is kept whether or not it fails. -/
abbrev Render := ExceptT Error (StateM Allocator)

namespace Render

/-- The outcome, and the allocator after it. -/
def outcome {α : Type} (r : Render α) (a : Allocator) : Except Error α × Allocator :=
  (ExceptT.run r).run a

/-- Binds a value and gives the name of its placeholder. -/
def bind (v : Value) : Render String := do
  let a ← get
  set (a.bind v)
  return Allocator.placeholder a.next

/-- Binds values from left to right. -/
def bindAll : List Value → Render (List String)
  | [] => return []
  | v :: rest => do
    let first ← bind v
    let rest ← bindAll rest
    return first :: rest

/-- Binds values to names from left to right. -/
def bindNamed (p : Params) : Render Unit :=
  modify fun a => p.entries.foldl (fun a e => a.bindNamed e.1 e.2) a

end Render

end SqlAssembly

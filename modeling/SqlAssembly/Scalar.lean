import SqlAssembly.Calendar
import SqlAssembly.Uuid
import SqlAssembly.Value

namespace SqlAssembly

/-!
# Scalars of other types

What may be bound in place of a value: integers of every width that 64 bits with sign can hold,
singles, texts, identifiers, dates and times, and the optional forms of all of them.
-/

/-- The types whose members stand for a value. -/
class Scalar (α : Type) where
  /-- The value that is bound. -/
  toValue : α → Value

export Scalar (toValue)

instance : Scalar Value := ⟨id⟩
instance : Scalar Bool := ⟨.bool⟩
instance : Scalar Int8 := ⟨fun n => .int n.toInt64⟩
instance : Scalar Int16 := ⟨fun n => .int n.toInt64⟩
instance : Scalar Int32 := ⟨fun n => .int n.toInt64⟩
instance : Scalar Int64 := ⟨.int⟩
instance : Scalar UInt8 := ⟨fun n => .int n.toUInt64.toInt64⟩
instance : Scalar UInt16 := ⟨fun n => .int n.toUInt64.toInt64⟩
instance : Scalar UInt32 := ⟨fun n => .int n.toUInt64.toInt64⟩
instance : Scalar Binary32 := ⟨fun x => .float x.widen⟩
instance : Scalar Binary64 := ⟨.float⟩
instance : Scalar String := ⟨.text⟩
instance : Scalar Uuid := ⟨fun u => .text u.text⟩
instance : Scalar Date := ⟨fun d => .text d.text⟩
instance : Scalar Clock := ⟨fun c => .text c.text⟩
instance : Scalar ZonedInstant := ⟨fun z => .text z.text⟩

/-- No value at all is null. -/
instance {α : Type} [Scalar α] : Scalar (Option α) :=
  ⟨fun v => match v with
    | none => .null
    | some v => toValue v⟩

end SqlAssembly

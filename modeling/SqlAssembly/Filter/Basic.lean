import SqlAssembly.Query.Basic
import SqlAssembly.Scalar

namespace SqlAssembly

/-!
# Filters

Conditions as a caller writes them: a subject, the text of an operator and perhaps an operand, or
filters combined, or SQL text.  Nothing is checked before the filter becomes a condition.

* `Operand` — what may stand beside an operator;
* `Filter` — the filters, with short forms for the common ones.
-/

/-- What may stand beside an operator. -/
inductive Operand where
  | value (v : Value)
  | list (vs : List Value)
  /-- The column of this name, not a value. -/
  | column (expr : String)
  | select (query : Select)

/-- The kind of a value in messages. -/
def Value.kind : Value → OperandKind
  | .null => .null
  | .bool _ => .boolean
  | .int _ => .integer
  | .float _ => .float
  | .text _ => .text

/-- The kind of an operand in messages. -/
def Operand.kind : Operand → OperandKind
  | .value v => v.kind
  | .list _ => .list
  | .column _ => .column
  | .select _ => .subquery

/-- A scalar of any type as an operand. -/
def Operand.ofScalar {α : Type} [Scalar α] (x : α) : Operand := .value (toValue x)

/-- A list of scalars as an operand. -/
def Operand.ofList {α : Type} [Scalar α] (xs : List α) : Operand := .list (xs.map toValue)

/-- A condition as the caller writes it. -/
inductive Filter where
  | test (subject : Operand) (op : String) (operand : Option Operand)
  | group (combinator : Combinator) (filters : List Filter)
  /-- SQL text that is taken as it is. -/
  | raw (sql : String)

namespace Filter

/-- All of the filters. -/
def all (filters : List Filter) : Filter := .group .and filters

/-- One of the filters at least. -/
def any (filters : List Filter) : Filter := .group .or filters

/-- A comparison of two columns. -/
def columns (field op column : String) : Filter :=
  .test (.value (.text field)) op (some (.column column))

end Filter

end SqlAssembly

import SqlAssembly.Filter.Basic

namespace SqlAssembly

/-!
# From filters to conditions

Every filter is checked and becomes the one form of condition that its parts fit.  The subject of
a test is looked at first, then the operator, then the operand; a subquery as a subject is let
pass where it is compared with something.

* `fieldOf` — the quoted column that a subject names;
* `operatorOf` — the operator of a text;
* `Condition.compareSubquery`, `Condition.compareColumns`, `Condition.test` — the forms of a test;
* `Condition.classify` — the condition of a filter;
* `WhereClause.ofFilters` — the clause of several filters.
-/

/-- The quoted column that the subject of a test names. -/
def fieldOf : Operand → Except Error String
  | .value (.text field) =>
    if Text.allBlank field.toList then .error .blankField else quoteColumn field
  | other => .error (.fieldNoName other.kind)

/-- The operator of a text. -/
def operatorOf (text : String) : Except Error Operator :=
  match Operator.parse? text with
  | some op => .ok op
  | none => .error (.operatorUnknown text)

namespace Condition

/-- A subquery compared with a value. -/
def compareSubquery (query : Select) (op : String) (operand : Operand) :
    Except Error Condition := do
  let op ← operatorOf op
  if op.cls ≠ .comparison then throw (.operatorOnSubquery op)
  match operand with
  | .value v => return .subquery query op v
  | other => throw (.subqueryScalarExpected op other.kind)

/-- A column compared with another column. -/
def compareColumns (subject : Operand) (op column : String) : Except Error Condition := do
  let field ← fieldOf subject
  let op ← operatorOf op
  if op.cls ≠ .comparison then throw (.operatorOnColumns op)
  if Text.allBlank column.toList then throw .blankReference
  return .columns field op (← quoteColumn column)

/-- A column tested by an operator, whose class says what operand it takes. -/
def test (subject : Operand) (op : String) (operand : Option Operand) :
    Except Error Condition := do
  let field ← fieldOf subject
  let op ← operatorOf op
  match op.cls, operand with
  | .nullCheck, none => return .nullCheck field op
  | .nullCheck, some _ => throw (.valueUnexpected op)
  | _, none => throw (.valueMissing op)
  | .list, some (.list []) => throw (.listEmpty op)
  | .list, some (.list values) => return .inList field op values
  | .list, some other => throw (.listExpected op other.kind)
  | .range, some (.list [low, high]) => return .between field op low high
  | .range, some (.list values) => throw (.pairSize op values.length)
  | .range, some other => throw (.pairExpected op other.kind)
  | .pattern, some (.value (.text text)) => return .pattern field op text
  | .pattern, some other => throw (.patternExpected op other.kind)
  | .comparison, some (.value v) => return .compare field op v
  | .comparison, some other => throw (.scalarExpected op other.kind)

mutual

/-- The condition of a filter. -/
def classify : Filter → Except Error Condition
  | .group combinator filters => do return .group combinator (← classifyAll filters)
  | .raw sql => return .raw sql
  | .test (.select query) op (some operand) => compareSubquery query op operand
  | .test subject op (some (.column column)) => compareColumns subject op column
  | .test subject op operand => test subject op operand

/-- The conditions of filters; the first one that is refused fails them all. -/
def classifyAll : List Filter → Except Error (List Condition)
  | [] => return []
  | f :: rest => do
    let c ← classify f
    let rest ← classifyAll rest
    return c :: rest

end

end Condition

/-- The clause of filters that all have to hold. -/
def WhereClause.ofFilters (filters : List Filter) : Except Error WhereClause := do
  WhereClause.ofConditions (← Condition.classifyAll filters)

end SqlAssembly

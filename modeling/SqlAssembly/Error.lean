import SqlAssembly.Identifier.Denial
import SqlAssembly.Operator

namespace SqlAssembly

/-!
# Errors

What can be wrong with a statement or with its execution.  An error is its cause; the kinds and the
texts that are shown are functions of it.

* `ErrorKind` — the fourteen kinds, with the wording of each in `ErrorKind.describe`;
* `Error` — the causes;
* `Error.kind`, `Error.detail`, `Error.message`.
-/

/-- The kinds of errors. -/
inductive ErrorKind where
  | invalidIdentifier
  | invalidColumnExpression
  | invalidTableExpression
  | missingColumn
  | missingTable
  | invalidField
  | invalidCondition
  | unsupportedOperator
  | missingSelectFields
  | missingFromTable
  | missingValues
  | execution
  | decode
  | aborted
  deriving DecidableEq, Repr

namespace ErrorKind

/-- The text of an error of this kind with the given detail. -/
def describe : ErrorKind → String → String
  | .invalidIdentifier, detail => "Invalid identifier: " ++ detail
  | .invalidColumnExpression, detail => "Invalid column expression: \"" ++ detail ++ "\""
  | .invalidTableExpression, detail => "Invalid table expression: \"" ++ detail ++ "\""
  | .missingColumn, detail => "No column provided: " ++ detail
  | .missingTable, detail => "No table provided: " ++ detail
  | .invalidField, detail => "Invalid field: " ++ detail
  | .invalidCondition, detail => "Invalid condition: " ++ detail
  | .unsupportedOperator, detail => "Unsupported operator: " ++ detail
  | .missingSelectFields, _ => "SELECT fields are required"
  | .missingFromTable, _ => "FROM table is required"
  | .missingValues, detail => detail ++ " requires at least one column"
  | .execution, detail => "Execution error: " ++ detail
  | .decode, detail => "Decode error: " ++ detail
  | .aborted, detail => "Query aborted by hook: " ++ detail

/-- A name or expression could not be quoted. -/
def isQuoting : ErrorKind → Bool
  | .invalidIdentifier | .invalidColumnExpression | .invalidTableExpression | .missingColumn
  | .missingTable => true
  | _ => false

/-- A condition could not be classified. -/
def isCondition : ErrorKind → Bool
  | .invalidField | .invalidCondition | .unsupportedOperator => true
  | _ => false

/-- The engine reported a failure. -/
def isExecution : ErrorKind → Bool
  | .execution => true
  | _ => false

end ErrorKind

/-- What stands in one place of a condition, as messages name it. -/
inductive OperandKind where
  | null
  | boolean
  | integer
  | float
  | text
  | list
  | column
  | subquery
  deriving DecidableEq, Repr

def OperandKind.name : OperandKind → String
  | .null => "null"
  | .boolean => "boolean"
  | .integer => "integer"
  | .float => "float"
  | .text => "string"
  | .list => "list"
  | .column => "column reference"
  | .subquery => "subquery"

/-- The statements that cannot do without columns. -/
inductive ColumnOwner where
  | insert
  | update
  | createTable
  deriving DecidableEq, Repr

def ColumnOwner.sql : ColumnOwner → String
  | .insert => "INSERT"
  | .update => "UPDATE"
  | .createTable => "CREATE TABLE"

/-- The causes of errors. -/
inductive Error where
  /-- A name, as written, is refused for a reason. -/
  | denied (name : String) (denial : Denial)
  /-- The text is no column expression. -/
  | columnShape (expr : String)
  /-- The text is no table expression. -/
  | tableShape (expr : String)
  /-- The text is blank where a column is asked for. -/
  | blankColumn (expr : String)
  /-- The text is blank where a table is asked for. -/
  | blankTable (expr : String)
  /-- The field of a condition is blank. -/
  | blankField
  /-- The field of a condition is no text. -/
  | fieldNoName (got : OperandKind)
  /-- The column to compare with is blank. -/
  | blankReference
  /-- A null check got a value. -/
  | valueUnexpected (op : Operator)
  /-- Any other operator got none. -/
  | valueMissing (op : Operator)
  | listEmpty (op : Operator)
  | listExpected (op : Operator) (got : OperandKind)
  /-- The list of a range does not have two values. -/
  | pairSize (op : Operator) (got : Nat)
  | pairExpected (op : Operator) (got : OperandKind)
  | patternExpected (op : Operator) (got : OperandKind)
  | scalarExpected (op : Operator) (got : OperandKind)
  /-- A subquery is compared with something else than a value. -/
  | subqueryScalarExpected (op : Operator) (got : OperandKind)
  /-- A list of conditions is empty. -/
  | whereEmpty
  /-- The text is no operator. -/
  | operatorUnknown (text : String)
  /-- A subquery is used with an operator that does not compare. -/
  | operatorOnSubquery (op : Operator)
  /-- Two columns are used with an operator that does not compare. -/
  | operatorOnColumns (op : Operator)
  /-- A SELECT has no field. -/
  | fieldsMissing
  /-- A statement has no table. -/
  | tableMissing
  | columnsMissing (owner : ColumnOwner)
  /-- The engine reported a failure. -/
  | execution (text : String)
  /-- A column of a row is absent or of another type. -/
  | columnMismatch (column : String)
  /-- A hook refused to let the statement run. -/
  | aborted (reason : String)
  /-- An error that is described by whoever reports it. -/
  | reported (kind : ErrorKind) (text : String)
  deriving DecidableEq, Repr

namespace Error

/-- The kind of an error. -/
def kind : Error → ErrorKind
  | .denied .. => .invalidIdentifier
  | .columnShape _ => .invalidColumnExpression
  | .tableShape _ => .invalidTableExpression
  | .blankColumn _ => .missingColumn
  | .blankTable _ => .missingTable
  | .blankField | .fieldNoName _ | .blankReference => .invalidField
  | .valueUnexpected _ | .valueMissing _ | .listEmpty _ | .listExpected .. | .pairSize ..
  | .pairExpected .. | .patternExpected .. | .scalarExpected .. | .subqueryScalarExpected ..
  | .whereEmpty => .invalidCondition
  | .operatorUnknown _ | .operatorOnSubquery _ | .operatorOnColumns _ => .unsupportedOperator
  | .fieldsMissing => .missingSelectFields
  | .tableMissing => .missingFromTable
  | .columnsMissing _ => .missingValues
  | .execution _ => .execution
  | .columnMismatch _ => .decode
  | .aborted _ => .aborted
  | .reported kind _ => kind

/-- What the text of an error adds to its kind. -/
def detail : Error → String
  | .denied name denial =>
    "\"" ++ name ++ "\" matches dangerous pattern `" ++ denial.pattern ++ "`"
  | .columnShape expr => expr
  | .tableShape expr => expr
  | .blankColumn expr => "\"" ++ expr ++ "\""
  | .blankTable expr => "\"" ++ expr ++ "\""
  | .blankField => "field name must not be empty"
  | .fieldNoName got => "field must be a column name, got " ++ got.name
  | .blankReference => "referenced column must not be empty"
  | .valueUnexpected op => op.sql ++ " does not take a value"
  | .valueMissing op => op.sql ++ " requires a value"
  | .listEmpty op => op.sql ++ " requires a non-empty list"
  | .listExpected op got => op.sql ++ " requires a list, got " ++ got.name
  | .pairSize op got => op.sql ++ " requires exactly two values, got " ++ toString got
  | .pairExpected op got => op.sql ++ " requires a list of two values, got " ++ got.name
  | .patternExpected op got => op.sql ++ " requires a string pattern, got " ++ got.name
  | .scalarExpected op got => op.sql ++ " requires a scalar value, got " ++ got.name
  | .subqueryScalarExpected op got =>
    "subquery comparison with " ++ op.sql ++ " requires a scalar value, got " ++ got.name
  | .whereEmpty => "WHERE requires at least one condition"
  | .operatorUnknown text => "\"" ++ text ++ "\""
  | .operatorOnSubquery op => op.sql ++ " cannot compare a subquery"
  | .operatorOnColumns op => op.sql ++ " cannot compare two columns"
  | .fieldsMissing => ""
  | .tableMissing => ""
  | .columnsMissing owner => owner.sql
  | .execution text => text
  | .columnMismatch column => "unexpected value in column \"" ++ column ++ "\""
  | .aborted reason => reason
  | .reported _ text => text

/-- The text of an error. -/
def message (e : Error) : String := e.kind.describe e.detail

end Error

end SqlAssembly

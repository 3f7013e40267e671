import SqlAssembly.Error
import SqlAssembly.Json.Reader

namespace SqlAssembly

/-!
# Result rows

A row holds JSON values by column name.  Its columns are read into a record one by one.

* `Row` — the columns and their values;
* `Row.int`, `Row.text`, `Row.optionalText` — a column as a member of a record.
-/

/-- A result row. -/
structure Row where
  columns : List (String × Json)

namespace Row

/-- The value of a column; of columns with the same name the last one counts. -/
def get? (r : Row) (column : String) : Option Json :=
  (r.columns.reverse.find? (·.1 == column)).map (·.2)

/-- A column that holds an integer of 64 bits with sign. -/
def int (r : Row) (column : String) : Except Error Int64 :=
  match (r.get? column).bind Json.int64? with
  | some n => .ok n
  | none => .error (.columnMismatch column)

/-- A column that holds a text. -/
def text (r : Row) (column : String) : Except Error String :=
  match (r.get? column).bind Json.str? with
  | some s => .ok s
  | none => .error (.columnMismatch column)

/-- A column that holds a text or null, or is absent. -/
def optionalText (r : Row) (column : String) : Except Error (Option String) :=
  match r.get? column with
  | none | some .null => .ok none
  | some (.str s) => .ok (some s)
  | _ => .error (.columnMismatch column)

/-- The row as a JSON object. -/
def toJson (r : Row) : Json := .obj r.columns

end Row

end SqlAssembly

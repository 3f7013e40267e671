import SqlAssembly.Text.Blank
import SqlAssembly.Text.Runs

namespace SqlAssembly

/-!
# Condition operators

The operators that a condition may use, each of one class: comparisons take one value, null
checks none, lists and ranges take several, patterns a text.

* `Operator.sql` — the SQL text;
* `Operator.parse?` — the operator of a text, whatever its ASCII case and its blanks;
* `Operator.Class`, `Operator.cls` — the five classes.
-/

/-- The operators of conditions.  There are two spellings of inequality. -/
inductive Operator where
  | eq
  | ne
  | notEqual
  | gt
  | lt
  | gte
  | lte
  | isIn
  | notIn
  | like
  | notLike
  | ilike
  | notIlike
  | isNull
  | isNotNull
  | between
  | notBetween
  deriving DecidableEq, Repr

namespace Operator

/-- All operators. -/
def all : List Operator :=
  [.eq, .ne, .notEqual, .gt, .lt, .gte, .lte, .isIn, .notIn, .like, .notLike, .ilike, .notIlike,
    .isNull, .isNotNull, .between, .notBetween]

/-- The SQL text of an operator. -/
def sql : Operator → String
  | .eq => "="
  | .ne => "!="
  | .notEqual => "<>"
  | .gt => ">"
  | .lt => "<"
  | .gte => ">="
  | .lte => "<="
  | .isIn => "IN"
  | .notIn => "NOT IN"
  | .like => "LIKE"
  | .notLike => "NOT LIKE"
  | .ilike => "ILIKE"
  | .notIlike => "NOT ILIKE"
  | .isNull => "IS NULL"
  | .isNotNull => "IS NOT NULL"
  | .between => "BETWEEN"
  | .notBetween => "NOT BETWEEN"

/-- What an operator is applied to. -/
inductive Class where
  | comparison
  | list
  | pattern
  | nullCheck
  | range
  deriving DecidableEq, Repr

/-- The class of an operator. -/
def cls : Operator → Class
  | .eq | .ne | .notEqual | .gt | .lt | .gte | .lte => .comparison
  | .isIn | .notIn => .list
  | .like | .notLike | .ilike | .notIlike => .pattern
  | .isNull | .isNotNull => .nullCheck
  | .between | .notBetween => .range

/-- The words of a text in ASCII capitals, one space between them. -/
def normalized (text : String) : List Char :=
  let words := Text.runs (fun c => !Text.isBlank c) text.toList
  ((words.intersperse [' ']).flatten).map Char.toUpper

/-- The operator of a text, whatever its ASCII case and its blanks. -/
def parse? (text : String) : Option Operator :=
  all.find? fun op => op.sql.toList == normalized text

end Operator

end SqlAssembly

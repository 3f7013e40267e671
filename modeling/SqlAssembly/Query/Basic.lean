import SqlAssembly.Allocator
import SqlAssembly.ColumnExpr.Function

namespace SqlAssembly

/-!
# Queries and conditions

A SELECT has fields and conditions, and both may embed another SELECT.  Wherever a name stands in
these types, it is SQL text that was quoted before.

* `Select`, `Field` — a query and the entries of its select list;
* `Condition` — a condition of a WHERE clause;
* `WhereClause` — the conditions that were added together, at least one.
-/

/-- The kinds of joins. -/
inductive JoinKind where
  | join
  | inner
  | left
  | right
  | full
  deriving DecidableEq, Repr

def JoinKind.sql : JoinKind → String
  | .join => "JOIN"
  | .inner => "INNER JOIN"
  | .left => "LEFT JOIN"
  | .right => "RIGHT JOIN"
  | .full => "FULL JOIN"

/-- A joined table and the two columns that must be equal. -/
structure Join where
  kind : JoinKind
  table : String
  left : String
  right : String
  deriving DecidableEq, Repr

def Join.sql (j : Join) : String :=
  j.kind.sql ++ " " ++ j.table ++ " ON " ++ j.left ++ " = " ++ j.right

/-- The direction of an ordering. -/
inductive Direction where
  | asc
  | desc
  deriving DecidableEq, Repr

/-- Without a direction the greatest comes first. -/
instance : Inhabited Direction := ⟨.desc⟩

def Direction.sql : Direction → String
  | .asc => "ASC"
  | .desc => "DESC"

/-- How the conditions of a group are combined. -/
inductive Combinator where
  | and
  | or
  deriving DecidableEq, Repr

def Combinator.sql : Combinator → String
  | .and => "AND"
  | .or => "OR"

mutual

/-- A SELECT statement. -/
structure Select where
  fields : List Field := []
  tables : List String := []
  joins : List Join := []
  clauses : List WhereClause := []
  order : List (String × Direction) := []
  limit : Option UInt64 := none
  offset : Option UInt64 := none
  /-- The name it goes by as a field, already quoted. -/
  alias? : Option String := none
  options : BuildOptions := {}
  /-- The first error that was made in putting it together. -/
  fault : Option Error := none

/-- An entry of a select list. -/
inductive Field where
  | column (sql : String)
  | call (call : FunctionCall)
  | subquery (query : Select)

/-- A condition. -/
inductive Condition where
  | compare (field : String) (op : Operator) (value : Value)
  | nullCheck (field : String) (op : Operator)
  | inList (field : String) (op : Operator) (values : List Value)
  | between (field : String) (op : Operator) (low high : Value)
  | pattern (field : String) (op : Operator) (pattern : String)
  | columns (field : String) (op : Operator) (column : String)
  | subquery (query : Select) (op : Operator) (value : Value)
  | group (combinator : Combinator) (conditions : List Condition)
  | raw (sql : String)

/-- Conditions that all have to hold. -/
structure WhereClause where
  first : Condition
  rest : List Condition

end

instance : Inhabited Select := ⟨{}⟩

namespace WhereClause

/-- The conditions in order. -/
def conditions (w : WhereClause) : List Condition := w.first :: w.rest

/-- The clause of conditions that were checked before. -/
def ofConditions : List Condition → Except Error WhereClause
  | [] => .error .whereEmpty
  | c :: rest => .ok ⟨c, rest⟩

end WhereClause

mutual

/-- Nothing is asked for: a group of nothing but such conditions. -/
def Condition.isEmpty : Condition → Bool
  | .group _ conditions => Condition.allEmpty conditions
  | _ => false

/-- None of the conditions asks for anything. -/
def Condition.allEmpty : List Condition → Bool
  | [] => true
  | c :: rest => c.isEmpty && Condition.allEmpty rest

end

end SqlAssembly

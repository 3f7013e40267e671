import SqlAssembly.ColumnExpr.Arguments
import SqlAssembly.ColumnExpr.Basic

namespace SqlAssembly

/-!
# Reading column expressions

A text with a function name and an opening parenthesis is a call if, behind some closing
parenthesis, nothing follows but an optional alias; the first such parenthesis closes it.  Any
other text is a star or a qualified name.

* `CallShape.read` — the parts of a call;
* `ColumnExpr.parse` — the expression of a text;
* `quoteColumn`, `quoteColumns` — the SQL text of an expression, or of several.
-/

/-- The parts of a call as written, the argument list trimmed. -/
structure CallShape where
  function : List Char
  arguments : List Char
  alias? : Option Segment

namespace CallShape

/-- A function name may go on with this character. -/
def isNameTail (c : Char) : Bool := Segment.isHead c || c.isDigit

/-- The text up to the first closing parenthesis that only an optional alias follows. -/
def readArguments : List Char → Option (List Char × Option Segment)
  | [] => none
  | c :: s =>
    match if c = ')' then Segment.readAlias s else none with
    | some alias? => some ([], alias?)
    | none => (readArguments s).map fun r => (c :: r.1, r.2)

/-- The parts of a text that has the shape of a call. -/
def read (s : List Char) : Option CallShape :=
  match Text.skipBlanks s with
  | [] => none
  | c :: s =>
    if Segment.isHead c then
      match Text.skipBlanks (s.dropWhile isNameTail) with
      | '(' :: rest =>
        (readArguments rest).map fun r => ⟨c :: s.takeWhile isNameTail, Text.trim r.1, r.2⟩
      | _ => none
    else none

/-- An argument list does not hold the parenthesis that closes it. -/
theorem readArguments_length_lt {s : List Char} {r : List Char × Option Segment}
    (h : readArguments s = some r) : r.1.length < s.length := by
  induction s generalizing r with
  | nil => simp [readArguments] at h
  | cons c s ih =>
    unfold readArguments at h
    split at h
    · obtain rfl := Option.some.inj h
      simp
    · obtain ⟨d, hd, rfl⟩ := Option.map_eq_some_iff.mp h
      have := ih hd
      simp only [List.length_cons]
      omega

/-- The arguments of a call are shorter than the call, by its name and its two parentheses.  The
reader of expressions goes down by this. -/
theorem read_length_lt {s : List Char} {call : CallShape} (h : read s = some call) :
    call.arguments.length + 1 < s.length := by
  unfold read at h
  split at h
  · cases h
  · next c t hs =>
    split at h
    · split at h
      · next rest hrest =>
        obtain ⟨r, hr, rfl⟩ := Option.map_eq_some_iff.mp h
        -- each reader leaves a part of what it is given
        have h1 := readArguments_length_lt hr
        have h2 := Text.trim_length_le r.1
        have h3 := Text.skipBlanks_length_le (t.dropWhile isNameTail)
        have h4 := (List.dropWhile_sublist isNameTail (l := t)).length_le
        have h5 := Text.skipBlanks_length_le s
        rw [hrest] at h3
        rw [hs] at h5
        simp only [List.length_cons] at *
        omega
      · cases h
    · cases h

end CallShape

namespace Argument

/-- Digits, perhaps after a minus, perhaps with a fraction. -/
def isNumber (s : List Char) : Bool :=
  let s := match s with
    | '-' :: r => r
    | r => r
  !(s.takeWhile Char.isDigit).isEmpty &&
    match s.dropWhile Char.isDigit with
    | [] => true
    | '.' :: places => !places.isEmpty && places.all Char.isDigit
    | _ => false

/-- A number, or a text between apostrophes with the apostrophes inside doubled. -/
def isLiteral (s : List Char) : Bool := isNumber s || (Text.unquote? '\'' s).isSome

end Argument

/-- The alias of a call.  An alias that is a quoted name between quotes stands for the inner
name. -/
def callAlias (alias? : Option Segment) : Except Error (Option String) :=
  alias?.mapM fun segment => do
    Identifier.check segment.name
    return String.ofList (Identifier.decode segment.name)

mutual

/-- The expression of a text.  What has the shape of a call is read as one. -/
def ColumnExpr.parse (s : List Char) : Except Error ColumnExpr :=
  if Text.trim s = ['*'] then .ok .star
  else
    match h : CallShape.read s with
    | none => (QualifiedName.parse .column s).map .column
    | some call => do
      Identifier.check call.function
      have := ArgumentList.measure_split_le call.arguments
      have := CallShape.read_length_lt h
      let arguments ← Argument.parseAll (ArgumentList.split call.arguments)
      let alias? ← callAlias call.alias?
      return .call (String.ofList (call.function.map Text.upper)) arguments alias?
termination_by s.length
decreasing_by omega

/-- The arguments of a split list. -/
def Argument.parseAll (ps : List (List Char)) : Except Error (List Argument) :=
  match ps with
  | [] => .ok []
  | p :: rest => do
    let argument ←
      if Argument.isLiteral p then pure (.literal (String.ofList p))
      else (ColumnExpr.parse p).map .expr
    let rest ← Argument.parseAll rest
    return argument :: rest
termination_by ArgumentList.measure ps
decreasing_by all_goals simp [ArgumentList.measure]; try omega

end

/-- The three cases of the reader, each with its own condition.  A text that trims to a star is a
star. -/
theorem ColumnExpr.parse_star {s : List Char} (h : Text.trim s = ['*']) : parse s = .ok .star := by
  rw [parse.eq_def, if_pos h]

/-- What is no star and does not have the shape of a call is read as a qualified name. -/
theorem ColumnExpr.parse_column {s : List Char} (h : Text.trim s ≠ ['*'])
    (hread : CallShape.read s = none) : parse s = (QualifiedName.parse .column s).map .column := by
  rw [parse.eq_def, if_neg h]
  split
  · rfl
  · next call hcall => rw [hread] at hcall; cases hcall

/-- What has the shape of a call is one: its name is checked, then its arguments, then its alias,
and the first error is the answer. -/
theorem ColumnExpr.parse_call {s : List Char} {call : CallShape} (h : Text.trim s ≠ ['*'])
    (hread : CallShape.read s = some call) :
    parse s = do
      Identifier.check call.function
      let arguments ← Argument.parseAll (ArgumentList.split call.arguments)
      let alias? ← callAlias call.alias?
      return .call (String.ofList (call.function.map Text.upper)) arguments alias? := by
  rw [parse.eq_def, if_neg h]
  split
  · next hnone => rw [hread] at hnone; cases hnone
  · next call' hcall =>
    obtain rfl : call = call' := Option.some.inj (hread.symm.trans hcall)
    rfl

/-- Arguments are read from left to right.  A literal is kept as it is; anything else has to be an
expression. -/
theorem Argument.parseAll_cons (p : List Char) (rest : List (List Char)) :
    parseAll (p :: rest) = do
      let argument ←
        if isLiteral p then pure (.literal (String.ofList p)) else (ColumnExpr.parse p).map .expr
      let rest ← parseAll rest
      return argument :: rest := by
  rw [parseAll.eq_def]

/-- The SQL text of a column expression: a star, a call, or a column with an optional alias. -/
def quoteColumn (expr : String) : Except Error String :=
  (ColumnExpr.parse expr.toList).map ColumnExpr.sql

/-- The SQL texts of column expressions; the first one that is refused fails them all. -/
def quoteColumns (exprs : List String) : Except Error (List String) := exprs.mapM quoteColumn

end SqlAssembly

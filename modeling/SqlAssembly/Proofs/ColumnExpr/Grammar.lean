import SqlAssembly.ColumnExpr.Function
import SqlAssembly.Proofs.Outcome

namespace SqlAssembly.Grammar

/-!
# The grammar of quoted expressions

What a quoted column expression and a quoted table look like, told without the parser.

* `IsName`, `IsPath`, `IsAlias`, `IsFunctionName`, `IsNumber`, `IsString` — the parts;
* `Generates` — the expressions, whose arguments are numbers, strings or expressions again;
* `IsTable` — the table expressions;
* `generates_of_quoteColumn`, `isTable_of_quoteTable` — quoting gives nothing else.
-/

/-! ### The parts -/

/-- A name between double quotes, the quotes inside doubled. -/
def IsName (s : List Char) : Prop := ∃ name, s = Text.quoted '"' name

/-- One to `n` quoted names with points between them. -/
def IsPath (n : Nat) (s : List Char) : Prop :=
  ∃ names : List (List Char), names ≠ [] ∧ names.length ≤ n ∧
    s = ['.'].intercalate (names.map (Text.quoted '"'))

/-- Nothing, or ` AS ` with a quoted name. -/
def IsAlias (s : List Char) : Prop := s = [] ∨ ∃ name, IsName name ∧ s = " AS ".toList ++ name

/-- A letter up to case, or an underscore. -/
def isFunctionHead (c : Char) : Bool := Text.isLetter c || c == '_'

/-- A letter up to case, an underscore or a digit. -/
def isFunctionTail (c : Char) : Bool := isFunctionHead c || c.isDigit

/-- The name of a function. -/
def IsFunctionName (s : List Char) : Prop :=
  ∃ c cs, s = c :: cs ∧ isFunctionHead c = true ∧ ∀ d ∈ cs, isFunctionTail d = true

/-- Digits, at least one. -/
def IsDigits (s : List Char) : Prop := s ≠ [] ∧ ∀ c ∈ s, c.isDigit = true

/-- Digits, perhaps with a fraction, perhaps behind a minus. -/
def IsNumber (s : List Char) : Prop :=
  ∃ sign whole, (sign = [] ∨ sign = ['-']) ∧ IsDigits whole ∧
    (s = sign ++ whole ∨ ∃ places, IsDigits places ∧ s = sign ++ (whole ++ '.' :: places))

/-- A string between apostrophes, the apostrophes inside doubled. -/
def IsString (s : List Char) : Prop := ∃ content, s = Text.quoted '\'' content

/-! ### Expressions and tables -/

/-- What is generated: an expression, or an argument of a call. -/
inductive Part where
  | expression
  | argument
  deriving DecidableEq, Repr

/-- The texts of expressions and of their arguments. -/
inductive Generates : Part → List Char → Prop
  | star : Generates .expression ['*']
  | column {path tail : List Char} : IsPath 3 path → IsAlias tail →
    Generates .expression (path ++ tail)
  | call {function tail : List Char} {arguments : List (List Char)} :
    IsFunctionName function → (∀ x ∈ arguments, Generates .argument x) → IsAlias tail →
    Generates .expression
      (function ++ '(' :: ([',', ' '].intercalate arguments ++ ')' :: tail))
  | number {s : List Char} : IsNumber s → Generates .argument s
  | string {s : List Char} : IsString s → Generates .argument s
  | nested {s : List Char} : Generates .expression s → Generates .argument s

/-- The texts of tables: one or two names, perhaps with an alias. -/
def IsTable (s : List Char) : Prop := ∃ path tail, IsPath 2 path ∧ IsAlias tail ∧ s = path ++ tail

/-! ### Names, paths and aliases are written so -/

/-- The quoted form of a name is a name of the grammar. -/
theorem isName_quoted (name : String) : IsName (Identifier.quoted name).toList :=
  ⟨name.toList, by rw [Identifier.quoted, String.toList_ofList]⟩

/-- The text of an alias is one of the grammar, also if there is none. -/
theorem isAlias_aliasSql (alias? : Option String) : IsAlias (aliasSql alias?).toList := by
  cases alias? with
  | none => exact .inl rfl
  | some name => exact .inr ⟨_, isName_quoted name, by rw [aliasSql, String.toList_append]⟩

/-- Quoted parts with points between them are a path of the grammar. -/
theorem isPath_intercalate {n : Nat} {parts : List String} (hne : parts ≠ [])
    (hlen : parts.length ≤ n) :
    IsPath n (".".intercalate (parts.map Identifier.quoted)).toList := by
  refine ⟨parts.map String.toList, by simpa using hne, by simpa using hlen, ?_⟩
  rw [String.toList_intercalate, List.map_map, List.map_map]
  congr 1
  apply List.map_congr_left
  intro part _
  simp [Identifier.quoted]

/-! ### Qualified names -/

/-- A path has a name at least, and no more than are asked for. -/
theorem length_of_readPath {n : Nat} {s : List Char} {r : List Segment × List Char}
    (h : QualifiedName.readPath n s = some r) : r.1 ≠ [] ∧ r.1.length ≤ n := by
  induction n generalizing s r with
  | zero => cases h
  | succ n ih =>
    unfold QualifiedName.readPath at h
    split at h
    · cases h
    · obtain ⟨r', hr', rfl⟩ := Option.map_eq_some_iff.mp h
      obtain ⟨-, hlen⟩ := ih hr'
      exact ⟨by simp, by simpa using hlen⟩
    · obtain rfl := Option.some.inj h
      exact ⟨by simp, by simp⟩

/-- The parts of a name are a path and the alias behind it. -/
theorem readParts_some {n : Nat} {s : List Char} {path : List Segment} {alias? : Option Segment}
    (h : QualifiedName.readParts n s = some (path, alias?)) :
    ∃ rest, QualifiedName.readPath n (Text.skipBlanks s) = some (path, rest) ∧
      Segment.readAlias rest = some alias? := by
  obtain ⟨⟨path', rest⟩, hpath, hrest⟩ := Option.bind_eq_some_iff.mp h
  obtain ⟨alias', halias, hsome⟩ := Option.bind_eq_some_iff.mp hrest
  obtain ⟨rfl, rfl⟩ := Prod.mk.inj (Option.some.inj hsome)
  exact ⟨rest, hpath, halias⟩

/-- What is checked item by item has as many items as before. -/
theorem length_of_mapM {α β : Type} {f : α → Except Error β} {xs : List α} {ys : List β}
    (h : xs.mapM f = .ok ys) : ys.length = xs.length := by
  induction xs generalizing ys with
  | nil =>
    obtain rfl := Except.ok.inj h
    rfl
  | cons x xs ih =>
    rw [List.mapM_cons] at h
    obtain ⟨y, -, h⟩ := bind_eq_ok.mp h
    obtain ⟨ys', hys, h⟩ := bind_eq_ok.mp h
    obtain rfl := Except.ok.inj h
    simp [ih hys]

/-- A qualified name has at least one part, and no more than its role allows. -/
theorem parts_of_parse {role : NameRole} {s : List Char} {q : QualifiedName}
    (h : QualifiedName.parse role s = .ok q) : q.parts ≠ [] ∧ q.parts.length ≤ role.maxParts := by
  unfold QualifiedName.parse at h
  split at h
  · cases h
  split at h
  · next path alias? hread =>
    obtain ⟨rest, hpath, -⟩ := readParts_some hread
    obtain ⟨parts, hparts, h⟩ := bind_eq_ok.mp h
    obtain ⟨alias'', -, h⟩ := bind_eq_ok.mp h
    obtain rfl := Except.ok.inj h
    have hlen := length_of_mapM hparts
    obtain ⟨hne, hle⟩ := length_of_readPath hpath
    refine ⟨fun hnil => hne ?_, hlen ▸ hle⟩
    exact List.length_eq_zero_iff.mp (hlen ▸ congrArg List.length hnil)
  · cases h

/-- The text of a qualified name is a path and an alias. -/
theorem path_append_alias (q : QualifiedName) {n : Nat} (hne : q.parts ≠ [])
    (hlen : q.parts.length ≤ n) :
    ∃ path tail, IsPath n path ∧ IsAlias tail ∧ q.sql.toList = path ++ tail :=
  ⟨_, _, isPath_intercalate hne hlen, isAlias_aliasSql q.alias?,
    by rw [QualifiedName.sql, String.toList_append]⟩

/-! ### Function names -/

/-- The letters that Lean counts as letters are those of ASCII. -/
theorem lt_of_isAlpha {c : Char} (h : c.isAlpha = true) : c.toNat < 128 := by
  rcases (Bool.or_eq_true c.isUpper c.isLower).mp h with hupper | hlower
  · have hle : c.val ≤ 'Z'.val := (of_decide_eq_true hupper).2
    exact Nat.lt_of_le_of_lt (UInt32.le_iff_toNat_le.mp hle) (by decide)
  · have hle : c.val ≤ 'z'.val := of_decide_eq_true ((Bool.and_eq_true _ _).mp hlower).2
    exact Nat.lt_of_le_of_lt (UInt32.le_iff_toNat_le.mp hle) (by decide)

theorem lt_of_isDigit {c : Char} (h : c.isDigit = true) : c.toNat < 128 := by
  have hle : c.val ≤ '9'.val := of_decide_eq_true ((Bool.and_eq_true _ _).mp h).2
  exact Nat.lt_of_le_of_lt (UInt32.le_iff_toNat_le.mp hle) (by decide)

/-- Beyond ASCII, a function name may only have the long s and the kelvin sign. -/
theorem lt_or_eq_of_isFunctionTail {c : Char} (h : isFunctionTail c = true) :
    c.toNat < 128 ∨ c = '\u017f' ∨ c = '\u212a' := by
  simp only [isFunctionTail, isFunctionHead, Text.isLetter, Bool.or_eq_true, beq_iff_eq] at h
  -- the letters of ASCII, the two beyond, the underscore, and the digits
  rcases h with (((h | rfl) | rfl) | rfl) | h
  · exact .inl (lt_of_isAlpha h)
  · exact .inr (.inl rfl)
  · exact .inr (.inr rfl)
  · exact .inl (by decide)
  · exact .inl (lt_of_isDigit h)

/-- A property of the characters of function names can be checked one by one. -/
theorem of_isFunctionTail {p : Char → Bool}
    (hascii : ∀ n : Fin 128, (isFunctionTail (.ofNat n) && !p (.ofNat n)) = false)
    (hs : p '\u017f' = true) (hk : p '\u212a' = true) {c : Char}
    (h : isFunctionTail c = true) : p c = true := by
  rcases lt_or_eq_of_isFunctionTail h with hlt | rfl | rfl
  · have := hascii ⟨c.toNat, hlt⟩
    simpa [Char.ofNat_toNat, h] using this
  · exact hs
  · exact hk

/-- The capital of a head of function names is one again. -/
theorem isFunctionHead_upper {c : Char} (h : isFunctionHead c = true) :
    isFunctionHead (Text.upper c) = true := by
  have htail : isFunctionTail c = true := by simp [isFunctionTail, h]
  have : (!isFunctionHead c || isFunctionHead (Text.upper c)) = true :=
    of_isFunctionTail (p := fun c => !isFunctionHead c || isFunctionHead (Text.upper c))
      (by decide) (by decide) (by decide) htail
  simpa [h] using this

/-- The capital of a character of function names is one again. -/
theorem isFunctionTail_upper {c : Char} (h : isFunctionTail c = true) :
    isFunctionTail (Text.upper c) = true :=
  of_isFunctionTail (p := fun c => isFunctionTail (Text.upper c))
    (by decide) (by decide) (by decide) h

/-- The characters of function names are characters of words. -/
theorem isWordChar_of_isFunctionTail {c : Char} (h : isFunctionTail c = true) :
    Text.isWordChar c = true :=
  of_isFunctionTail (p := Text.isWordChar) (by decide) (by decide) (by decide +kernel) h

/-- None of them is a blank. -/
theorem not_isBlank_of_isFunctionTail {c : Char} (h : isFunctionTail c = true) :
    Text.isBlank c = false := by
  have := of_isFunctionTail (p := fun c => !Text.isBlank c) (by decide) (by decide) (by decide) h
  simpa using this

/-- The capitals of the name that is read are the name of a function. -/
theorem isFunctionName_of_read {s : List Char} {call : CallShape}
    (h : CallShape.read s = some call) : IsFunctionName (call.function.map Text.upper) := by
  unfold CallShape.read at h
  split at h
  · cases h
  next c t _ =>
  split at h
  · next hc =>
    split at h
    · obtain ⟨r, -, rfl⟩ := Option.map_eq_some_iff.mp h
      refine ⟨Text.upper c, _, rfl, isFunctionHead_upper hc, ?_⟩
      intro d hd
      obtain ⟨e, he, rfl⟩ := List.mem_map.mp hd
      exact isFunctionTail_upper (List.all_eq_true.mp List.all_takeWhile e he)
    · cases h
  · cases h

/-! ### Literals -/

/-- A number is digits behind an optional sign, and nothing or a fraction follows them. -/
theorem digits_of_isNumber {s : List Char} (h : Argument.isNumber s = true) :
    ∃ sign r, (sign = [] ∨ sign = ['-']) ∧ s = sign ++ r ∧ r.takeWhile Char.isDigit ≠ [] ∧
      (r.dropWhile Char.isDigit = [] ∨
        ∃ places, IsDigits places ∧ r.dropWhile Char.isDigit = '.' :: places) := by
  unfold Argument.isNumber at h
  split at h
  -- with a minus in front and without one, what follows is looked at in the same way
  all_goals
    first
    | refine ⟨['-'], _, .inr rfl, rfl, ?_⟩
    | refine ⟨[], _, .inl rfl, rfl, ?_⟩
    rw [Bool.and_eq_true] at h
    obtain ⟨hwhole, hrest⟩ := h
    refine ⟨by simpa using hwhole, ?_⟩
    split at hrest
    · next hnil => exact .inl hnil
    · next places hplaces =>
      rw [Bool.and_eq_true] at hrest
      exact .inr ⟨places, ⟨by simpa using hrest.1, List.all_eq_true.mp hrest.2⟩, hplaces⟩
    · cases hrest

/-- What is read as a number is a number of the grammar. -/
theorem isNumber_of_isNumber {s : List Char} (h : Argument.isNumber s = true) : IsNumber s := by
  obtain ⟨sign, r, hsign, rfl, hne, hrest⟩ := digits_of_isNumber h
  have hwhole : IsDigits (r.takeWhile Char.isDigit) :=
    ⟨hne, fun c hc => List.all_eq_true.mp List.all_takeWhile c hc⟩
  have hsplit := List.takeWhile_append_dropWhile (p := Char.isDigit) (l := r)
  refine ⟨sign, r.takeWhile Char.isDigit, hsign, hwhole, ?_⟩
  rcases hrest with hnil | ⟨places, hplaces, hrest⟩
  · rw [hnil, List.append_nil] at hsplit
    exact .inl (by rw [hsplit])
  · rw [hrest] at hsplit
    exact .inr ⟨places, hplaces, by rw [hsplit]⟩

/-- A literal is a number or a string of the grammar. -/
theorem generates_of_isLiteral {s : List Char} (h : Argument.isLiteral s = true) :
    Generates .argument s := by
  rw [Argument.isLiteral, Bool.or_eq_true] at h
  rcases h with hnumber | hstring
  · exact .number (isNumber_of_isNumber hnumber)
  · obtain ⟨content, hcontent⟩ := Option.isSome_iff_exists.mp hstring
    exact .string ⟨content, Text.eq_quoted_of_unquote? hcontent⟩

/-! ### Expressions -/

/-- A call is one of the grammar if its arguments are. -/
theorem generates_sql_call {function : List Char} {arguments : List Argument}
    {alias? : Option String} (hfunction : IsFunctionName function)
    (harguments : ∀ x ∈ Argument.sqls arguments, Generates .argument x.toList) :
    Generates .expression (ColumnExpr.call (String.ofList function) arguments alias?).sql.toList := by
  have htext : (ColumnExpr.call (String.ofList function) arguments alias?).sql.toList
      = function ++ '(' :: ([',', ' '].intercalate
          ((Argument.sqls arguments).map String.toList) ++ ')' :: (aliasSql alias?).toList) := by
    simp [ColumnExpr.sql, String.toList_intercalate]
  rw [htext]
  refine .call hfunction ?_ (isAlias_aliasSql alias?)
  intro x hx
  obtain ⟨text, htext, rfl⟩ := List.mem_map.mp hx
  exact harguments text htext

/-- Reading an expression, or the arguments of a call, gives what the grammar generates. -/
theorem generates_of_parse :
    (∀ s e, ColumnExpr.parse s = .ok e → Generates .expression e.sql.toList) ∧
    (∀ ps arguments, Argument.parseAll ps = .ok arguments →
      ∀ x ∈ Argument.sqls arguments, Generates .argument x.toList) := by
  -- along the recursion of the two readers, one case for each way that they take
  refine ColumnExpr.parse.mutual_induct
    (fun s => ∀ e, ColumnExpr.parse s = .ok e → Generates .expression e.sql.toList)
    (fun ps => ∀ arguments, Argument.parseAll ps = .ok arguments →
      ∀ x ∈ Argument.sqls arguments, Generates .argument x.toList)
    ?star ?column ?call ?nil ?literal ?nested
  case star =>
    intro s hs e h
    rw [ColumnExpr.parse_star hs] at h
    obtain rfl := Except.ok.inj h
    exact .star
  case column =>
    intro s hs hread e h
    rw [ColumnExpr.parse_column hs hread] at h
    obtain ⟨q, hq, rfl⟩ := map_eq_ok.mp h
    obtain ⟨hne, hlen⟩ := parts_of_parse hq
    obtain ⟨path, tail, hpath, htail, hsql⟩ := path_append_alias q hne hlen
    rw [ColumnExpr.sql, hsql]
    exact .column hpath htail
  case call =>
    intro s hs call hread ih e h
    rw [ColumnExpr.parse_call hs hread] at h
    obtain ⟨-, -, h⟩ := bind_eq_ok.mp h
    obtain ⟨arguments, harguments, h⟩ := bind_eq_ok.mp h
    obtain ⟨alias?, -, h⟩ := bind_eq_ok.mp h
    obtain rfl := Except.ok.inj h
    exact generates_sql_call (isFunctionName_of_read hread) (ih arguments harguments)
  case nil =>
    intro arguments h
    rw [Argument.parseAll.eq_def] at h
    obtain rfl := Except.ok.inj h
    simp [Argument.sqls]
  case literal =>
    intro p rest hp ih arguments h
    rw [Argument.parseAll_cons, if_pos hp] at h
    obtain ⟨argument, hargument, h⟩ := bind_eq_ok.mp h
    obtain ⟨others, hothers, h⟩ := bind_eq_ok.mp h
    obtain rfl := Except.ok.inj hargument
    obtain rfl := Except.ok.inj h
    rw [Argument.sqls, List.forall_mem_cons]
    refine ⟨?_, ih others hothers⟩
    rw [Argument.sql, String.toList_ofList]
    exact generates_of_isLiteral hp
  case nested =>
    intro p rest hp ihRest ihHead arguments h
    rw [Argument.parseAll_cons, if_neg hp] at h
    obtain ⟨argument, hargument, h⟩ := bind_eq_ok.mp h
    obtain ⟨others, hothers, h⟩ := bind_eq_ok.mp h
    obtain ⟨e, he, rfl⟩ := map_eq_ok.mp hargument
    obtain rfl := Except.ok.inj h
    rw [Argument.sqls, List.forall_mem_cons]
    exact ⟨.nested (ihHead e he), ihRest others hothers⟩

/-- A column expression is only ever quoted as the grammar says. -/
theorem generates_of_quoteColumn {expr sql : String} (h : quoteColumn expr = .ok sql) :
    Generates .expression sql.toList := by
  obtain ⟨e, he, rfl⟩ := map_eq_ok.mp h
  exact generates_of_parse.1 expr.toList e he

/-- A table expression is only ever quoted as the grammar says. -/
theorem isTable_of_quoteTable {expr sql : String} (h : QualifiedName.quoteTable expr = .ok sql) :
    IsTable sql.toList := by
  obtain ⟨q, hq, rfl⟩ := map_eq_ok.mp h
  obtain ⟨hne, hlen⟩ := parts_of_parse hq
  exact path_append_alias q hne hlen

/-- A quoted name is one quoted name. -/
theorem isName_of_quote {name sql : String} (h : Identifier.quote name = .ok sql) :
    IsName sql.toList := by
  obtain ⟨-, -, h⟩ := bind_eq_ok.mp h
  obtain rfl := Except.ok.inj h
  split
  · next hname =>
    obtain ⟨inner, hinner⟩ := Option.isSome_iff_exists.mp hname
    obtain ⟨hunquote, -⟩ := Option.filter_eq_some_iff.mp hinner
    exact ⟨inner, Text.eq_quoted_of_unquote? hunquote⟩
  · exact isName_quoted name

/-- The known functions have such names. -/
theorem isFunctionName_name (f : ColumnFunction) : IsFunctionName f.name.toList := by
  cases f
  all_goals
    refine ⟨_, _, rfl, ?_, List.all_eq_true.mp ?_⟩
    · decide
    · decide

/-- A described call is one of the expressions. -/
theorem generates_of_functionCall {call : FunctionCall} {sql : String} (h : call.sql = .ok sql) :
    Generates .expression sql.toList := by
  obtain ⟨column, hcolumn, h⟩ := bind_eq_ok.mp h
  have hargument : ∀ x ∈ [column.toList], Generates .argument x := by
    intro x hx
    obtain rfl := List.mem_singleton.mp hx
    exact .nested (generates_of_quoteColumn hcolumn)
  -- the column is the only argument, so only the alias is left to look at
  have key {tail : List Char} (htail : IsAlias tail) :=
    Generates.call (isFunctionName_name call.function) hargument htail
  cases halias : call.alias? with
  | none =>
    rw [halias] at h
    obtain rfl := Except.ok.inj h
    simpa using key (.inl rfl)
  | some name =>
    rw [halias] at h
    obtain ⟨quoted, hquoted, h⟩ := bind_eq_ok.mp h
    obtain rfl := Except.ok.inj h
    simpa using key (.inr ⟨_, isName_of_quote hquoted, rfl⟩)

end SqlAssembly.Grammar

import SqlAssembly.Proofs.ColumnExpr.Accepted
import SqlAssembly.Proofs.ColumnExpr.Reread
import SqlAssembly.Proofs.Sql.Alias

namespace SqlAssembly

/-!
# The aliases of a column expression

The quoted form of a column expression is a star, a column reference or a call, with an alias behind
it exactly if the expression has one.  Its aliases are those of the expression, in whatever call
they stand.

* `ColumnExpr.alias?`, `ColumnExpr.aliases` — the alias of an expression, and all that it contains;
* `Grammar.IsReference` — a column reference or a call, without an alias;
* `ColumnExpr.ShownAs`, `ColumnExpr.shownAs_sql` — the SQL text of an expression;
* `QuotedAs`, `quotedAs_of_quoteColumn` — what the caller wrote, and the text that it is quoted as.
-/

open Grammar Sql

/-! ### Aliases of expressions -/

/-- The alias behind an expression. -/
def ColumnExpr.alias? : ColumnExpr → Option String
  | .star => none
  | .column name => name.alias?
  | .call _ _ alias? => alias?

mutual

/-- The aliases in an expression, those of the arguments first. -/
def ColumnExpr.aliases : ColumnExpr → List String
  | .star => []
  | .column name => name.alias?.toList
  | .call _ arguments alias? => Argument.allAliases arguments ++ alias?.toList

/-- The aliases in an argument. -/
def Argument.aliases : Argument → List String
  | .literal _ => []
  | .expr e => e.aliases

/-- The aliases in arguments, from left to right. -/
def Argument.allAliases : List Argument → List String
  | [] => []
  | a :: rest => a.aliases ++ Argument.allAliases rest

end

/-- A column reference or a call of a function, without an alias behind it. -/
inductive Grammar.IsReference : List Char → Prop
  | path {s : List Char} : IsPath 3 s → IsReference s
  | call {function : List Char} {arguments : List (List Char)} :
    IsFunctionName function → (∀ x ∈ arguments, Generates .argument x) →
    IsReference (function ++ '(' :: ([',', ' '].intercalate arguments ++ [')']))

/-- How an expression is shown: a star as a star, and anything else as a reference, with the alias
of the expression behind it.  The text is a reference only if there is no alias, and its aliases are
those of the expression. -/
structure ColumnExpr.ShownAs (e : ColumnExpr) (sql : String) : Prop where
  star : sql = "*" ↔ e = .star
  reference : e ≠ .star →
    ∃ reference, IsReference reference ∧ sql.toList = reference ++ (aliasSql e.alias?).toList
  plain : IsReference sql.toList ↔ e ≠ .star ∧ e.alias? = none
  aliases : Sql.aliases sql = e.aliases

/-! ### Tokens of the parts -/

/-- Where no letter can begin it, there is no word AS. -/
theorem not_isAs_of_forall {s : List Char} (h : ∀ c ∈ s, c.toUpper ≠ 'A') :
    ∀ t ∈ tokens s, t.isAs = false := by
  intro t ht
  rw [Bool.eq_false_iff]
  intro has
  obtain ⟨c, hc, hupper⟩ := Token.exists_upper_of_isAs ht has
  exact h c hc hupper

/-- A digit has no capital, so it cannot begin the word AS. -/
theorem toUpper_ne_of_isDigit {c : Char} (h : c.isDigit = true) : c.toUpper ≠ 'A' := by
  have hrange : 48 ≤ c.toNat ∧ c.toNat ≤ 57 := by
    simpa [Char.isDigit, UInt32.le_iff_toNat_le] using h
  unfold Char.toUpper
  -- a capital is only taken of the letters from a to z, which are above the digits
  rw [dif_neg]
  · rintro rfl
    exact absurd hrange (by decide)
  · rintro ⟨hlow, -⟩
    have : 97 ≤ c.toNat := UInt32.le_iff_toNat_le.mp hlow
    omega

/-- A number has no word AS: a minus, digits and a point. -/
theorem not_isAs_of_isNumber {s : List Char} (h : IsNumber s) : ∀ t ∈ tokens s, t.isAs = false := by
  have hdigits : ∀ {s}, IsDigits s → ∀ c ∈ s, c.toUpper ≠ 'A' :=
    fun h c hc => toUpper_ne_of_isDigit (h.2 c hc)
  obtain ⟨sign, whole, hsign, hwhole, hs⟩ := h
  have hminus : ∀ c ∈ sign, c.toUpper ≠ 'A' := by
    rcases hsign with rfl | rfl
    · nofun
    · exact List.forall_mem_singleton.mpr (by decide)
  refine not_isAs_of_forall ?_
  -- with a fraction or without one
  rcases hs with rfl | ⟨places, hplaces, rfl⟩
  · exact List.forall_mem_append.mpr ⟨hminus, hdigits hwhole⟩
  · refine List.forall_mem_append.mpr ⟨hminus, List.forall_mem_append.mpr ⟨hdigits hwhole, ?_⟩⟩
    exact List.forall_mem_cons.mpr ⟨by decide, hdigits hplaces⟩

/-- No token of a path is the word AS. -/
theorem not_isAs_of_isPath {n : Nat} {s : List Char} (h : IsPath n s) :
    ∀ t ∈ tokens s, t.isAs = false := by
  obtain ⟨names, -, htokens⟩ := tokens_of_isPath h
  rw [htokens]
  -- the tokens are names and the points between them
  clear htokens h
  induction names with
  | nil => nofun
  | cons name names ih =>
    cases names with
    | nil => simp [Token.isAs, Token.isKeyword]
    | cons other names =>
      simp only [List.map_cons, List.intercalate_cons_cons] at ih ⊢
      rw [List.append_assoc, List.forall_mem_append]
      exact ⟨by simp [Token.isAs, Token.isKeyword], List.forall_mem_cons.mpr ⟨rfl, ih⟩⟩

/-- The text of an alias is the word AS and a name between quotes. -/
theorem tokens_aliasSql (alias? : Option String) :
    tokens (aliasSql alias?).toList
      = alias?.elim [] fun name => [.word ['A', 'S'], .name name.toList] := by
  cases alias? with
  | none => exact tokens_nil
  | some name =>
    have hname : (Identifier.quoted name).toList = Text.quoted '"' name.toList := by
      rw [Identifier.quoted, String.toList_ofList]
    rw [aliasSql, String.toList_append, hname, tokens_alias]
    rfl

/-- The alias that is read from it is that alias. -/
theorem aliasNames_aliasSql (alias? : Option String) :
    aliasNames (tokens (aliasSql alias?).toList) = alias?.toList := by
  rw [tokens_aliasSql]
  cases alias? with
  | none => rfl
  | some name =>
    show [String.ofList name.toList] = [name]
    rw [String.ofList_toList]

/-- Behind an alias no other one is awaited. -/
theorem settled_of_isAlias {s : List Char} (h : IsAlias s) : Settled (tokens s) := by
  rcases tokens_of_isAlias h with htokens | ⟨name, htokens⟩
  · rw [htokens]
    exact settled_nil
  · rw [htokens]
    exact settled_concat [.word ['A', 'S']] rfl

/-- No alias is awaited behind a path with an alias. -/
theorem settled_path_append {n : Nat} {path tail : List Char} (hpath : IsPath n path)
    (htail : IsAlias tail) : Settled (tokens (path ++ tail)) := by
  rw [tokens_append (harmless_of_isPath hpath).closed (delimited_of_isAlias htail)]
  exact (settled_of_forall (not_isAs_of_isPath hpath)).append (settled_of_isAlias htail)

/-- No alias is awaited behind a quoted expression. -/
theorem settled_of_generates {part : Part} {s : List Char} (h : Generates part s) :
    Settled (tokens s) := by
  induction h with
  | star => decide +kernel
  | column hpath htail => exact settled_path_append hpath htail
  -- the closing parenthesis settles whatever was in front of it
  | @call function tail arguments hfunction harguments htail =>
    have hclosed : ∀ x ∈ arguments, Closed x :=
      fun x hx => (harmless_of_generates (harguments x hx)).closed
    rw [tokens_call hfunction hclosed, ← List.cons_append, ← List.cons_append]
    exact (settled_concat _ rfl).append (settled_of_isAlias htail)
  | number h => exact settled_of_forall (not_isAs_of_isNumber h)
  | string h =>
    obtain ⟨content, rfl⟩ := h
    rw [tokens_string]
    exact settled_concat [] rfl
  | nested _ ih => exact ih

theorem settled_of_isTable {s : List Char} (h : IsTable s) : Settled (tokens s) := by
  obtain ⟨path, tail, hpath, htail, rfl⟩ := h
  exact settled_path_append hpath htail

/-! ### The SQL text of an expression -/

/-- The tokens of a call have the aliases of its arguments and its own. -/
theorem aliasNames_call {function tail : List Char} {arguments : List (List Char)}
    (hfunction : IsFunctionName function) (harguments : ∀ x ∈ arguments, Generates .argument x) :
    aliasNames (tokens (function ++ '(' :: ([',', ' '].intercalate arguments ++ ')' :: tail)))
      = arguments.flatMap (fun x => aliasNames (tokens x)) ++ aliasNames (tokens tail) := by
  have hclosed : ∀ x ∈ arguments, Closed x :=
    fun x hx => (harmless_of_generates (harguments x hx)).closed
  -- the arguments are parts of a list that is held together by symbols only
  have hlaid : Laid (.symbol '(' :: [.symbol ','].intercalate (arguments.map tokens) ++
      [.symbol ')']) (arguments.map tokens) := by
    have hsep : ∀ t ∈ [Token.symbol ','], t.isConnective = true := by decide
    have h := (Laid.intercalate hsep (arguments.map tokens)).append
      (.connective (t := .symbol ')') rfl .nil)
    rw [List.append_nil] at h
    exact .connective rfl h
  have hsettled : ∀ p ∈ arguments.map tokens, Settled p := by
    intro p hp
    obtain ⟨x, hx, rfl⟩ := List.mem_map.mp hp
    exact settled_of_generates (harguments x hx)
  -- the parenthesis keeps the name of the function away from the first argument
  have hname : ∀ ts, aliasNames (.word function :: .symbol '(' :: ts)
      = aliasNames (.symbol '(' :: ts) := fun ts => rfl
  rw [tokens_call hfunction hclosed, List.cons_append, List.cons_append, hname, ← List.cons_append,
    ← List.cons_append, aliasNames_append (hlaid.settled hsettled), hlaid.aliasNames_eq hsettled,
    List.flatMap_map]

mutual

/-- The aliases that are read from the text of an expression are those of the expression. -/
theorem ColumnExpr.aliases_sql (e : ColumnExpr) (h : e.Admissible) :
    Sql.aliases e.sql = e.aliases := by
  cases e with
  | star => decide +kernel
  | column name =>
    have hpath := isPath_intercalate h.parts_ne_nil h.length_le
    -- a path has no alias, so only the one behind it is left
    rw [Sql.aliases, ColumnExpr.sql, QualifiedName.sql, String.toList_append,
      tokens_append (harmless_of_isPath hpath).closed (delimited_of_isAlias (isAlias_aliasSql _)),
      aliasNames_append (settled_of_forall (not_isAs_of_isPath hpath)),
      aliasNames_eq_nil (not_isAs_of_isPath hpath), aliasNames_aliasSql]
    rfl
  | call function arguments alias? =>
    obtain ⟨hfunction, harguments, -⟩ := h
    rw [Sql.aliases, ColumnExpr.toList_sql_call,
      aliasNames_call hfunction.isFunctionName (Argument.generates_sqls arguments harguments),
      List.flatMap_map, aliasNames_aliasSql, ColumnExpr.aliases]
    exact congrArg (· ++ alias?.toList) (Argument.aliases_sqls arguments harguments)

/-- The same for arguments, from left to right; a literal has none. -/
theorem Argument.aliases_sqls (arguments : List Argument) (h : Argument.AllAdmissible arguments) :
    (Argument.sqls arguments).flatMap Sql.aliases = Argument.allAliases arguments := by
  cases arguments with
  | nil => rfl
  | cons a rest =>
    rw [Argument.sqls, List.flatMap_cons, Argument.aliases_sqls rest h.2, Argument.allAliases]
    refine congrArg (· ++ Argument.allAliases rest) ?_
    cases a with
    | expr e => exact ColumnExpr.aliases_sql e h.1
    | literal text =>
      have hliteral : Argument.isLiteral text.toList = true := h.1
      rw [Argument.isLiteral, Bool.or_eq_true] at hliteral
      rcases hliteral with hnumber | hstring
      · exact aliasNames_eq_nil (not_isAs_of_isNumber (isNumber_of_isNumber hnumber))
      · obtain ⟨content, hcontent⟩ := Option.isSome_iff_exists.mp hstring
        show aliasNames (tokens text.toList) = _
        rw [Text.eq_quoted_of_unquote? hcontent, tokens_string]
        rfl

end

namespace Grammar.IsReference

variable {s : List Char}

/-- Every quote in a reference is closed. -/
theorem closed (h : IsReference s) : Closed s := by
  cases h with
  | path hpath => exact (harmless_of_isPath hpath).closed
  | call hfunction harguments =>
    have hcall := harmless_of_generates (.call hfunction harguments (.inl rfl))
    exact hcall.closed

/-- A reference begins with a quoted name or with the name of a function. -/
theorem exists_head (h : IsReference s) : ∃ t ts, tokens s = t :: ts ∧ t ≠ .symbol '*' := by
  cases h with
  | path hpath =>
    obtain ⟨names, hne, htokens⟩ := tokens_of_isPath hpath
    obtain ⟨name, names, rfl⟩ := List.exists_cons_of_ne_nil hne
    rw [htokens]
    cases names with
    | nil => exact ⟨.name name, [], rfl, nofun⟩
    | cons other names => exact ⟨.name name, _, List.intercalate_cons_cons, nofun⟩
  | call hfunction harguments =>
    rw [tokens_call hfunction fun x hx => (harmless_of_generates (harguments x hx)).closed]
    exact ⟨_, _, rfl, nofun⟩

/-- No star is a reference, whatever stands behind it. -/
theorem tokens_ne_star (h : IsReference s) (ts : List Token) : tokens s ++ ts ≠ [.symbol '*'] := by
  obtain ⟨t, rest, htokens, ht⟩ := h.exists_head
  rw [htokens]
  exact fun hstar => ht (List.cons.inj hstar).1

/-- A reference does not end with an alias. -/
theorem tokens_ne_alias (h : IsReference s) (ts : List Token) (name : List Char) :
    tokens s ≠ ts ++ [.word ['A', 'S'], .name name] := by
  intro htokens
  cases h with
  | path hpath =>
    -- no token of a path is the word AS
    have has := not_isAs_of_isPath hpath (.word ['A', 'S']) (by simp [htokens])
    exact absurd has (by decide)
  | call hfunction harguments =>
    -- the last token of a call is its parenthesis
    have hcall := tokens_call hfunction
      (fun x hx => (harmless_of_generates (harguments x hx)).closed) []
    rw [htokens, tokens_nil, List.append_nil] at hcall
    have hlast := congrArg List.getLast? hcall
    rw [← List.cons_append, List.getLast?_concat] at hlast
    simp at hlast

end Grammar.IsReference

theorem tokens_star : tokens "*".toList = [.symbol '*'] := by decide +kernel

/-- The text of an expression is a reference and its alias, unless it is a star. -/
theorem ColumnExpr.reference_sql {e : ColumnExpr} (h : e.Admissible) (hne : e ≠ .star) :
    ∃ reference, IsReference reference ∧
      e.sql.toList = reference ++ (aliasSql e.alias?).toList := by
  cases e with
  | star => exact absurd rfl hne
  | column name =>
    exact ⟨_, .path (isPath_intercalate h.parts_ne_nil h.length_le),
      by rw [sql, QualifiedName.sql, String.toList_append]; rfl⟩
  | call function arguments alias? =>
    refine ⟨_, .call h.1.isFunctionName (Argument.generates_sqls arguments h.2.1), ?_⟩
    rw [toList_sql_call]
    simp [ColumnExpr.alias?]

/-- The tokens of a column expression are those of the reference and those of the alias. -/
theorem ColumnExpr.tokens_sql {e : ColumnExpr} (h : e.Admissible) (hne : e ≠ .star) :
    ∃ reference, IsReference reference ∧
      tokens e.sql.toList = tokens reference ++ tokens (aliasSql e.alias?).toList := by
  obtain ⟨reference, hreference, hsql⟩ := reference_sql h hne
  refine ⟨reference, hreference, ?_⟩
  rw [hsql, tokens_append hreference.closed (delimited_of_isAlias (isAlias_aliasSql _))]

/-- The SQL text of an expression shows it. -/
theorem ColumnExpr.shownAs_sql {e : ColumnExpr} (h : e.Admissible) : e.ShownAs e.sql where
  star := by
    refine ⟨fun hstar => ?_, fun hstar => by rw [hstar]; rfl⟩
    by_contra hne
    obtain ⟨reference, hreference, htokens⟩ := tokens_sql h hne
    rw [hstar, tokens_star] at htokens
    exact hreference.tokens_ne_star _ htokens.symm
  reference := reference_sql h
  plain := by
    constructor
    · intro hplain
      have hne : e ≠ .star := by
        rintro rfl
        refine hplain.tokens_ne_star [] ?_
        rw [List.append_nil]
        exact tokens_star
      obtain ⟨reference, -, htokens⟩ := tokens_sql h hne
      refine ⟨hne, ?_⟩
      -- an alias would be at the end of the text, where a reference has none
      cases halias : e.alias? with
      | none => rfl
      | some name =>
        rw [halias, tokens_aliasSql] at htokens
        exact absurd htokens (hplain.tokens_ne_alias _ _)
    · rintro ⟨hne, halias⟩
      obtain ⟨reference, hreference, hsql⟩ := reference_sql h hne
      rw [halias] at hsql
      rw [hsql]
      simpa [aliasSql] using hreference
  aliases := e.aliases_sql h

/-! ### Quoting -/

/-- The text is the quoted form of what the caller wrote: an expression with blanks at its ends,
which the text shows.  Between its quotes the alias of a call may be a quoted name, and then it is
unquoted once more. -/
def QuotedAs (expr sql : String) : Prop :=
  quoteColumn expr = .ok sql ∧
    ∃ lead text trail e, Text.allBlank lead = true ∧ Text.allBlank trail = true ∧
      expr.toList = lead ++ (text ++ trail) ∧ Argument.Written true (.expr e) text ∧
      e.reread.ShownAs sql

/-- Whatever is quoted is the quoted form of what the caller wrote. -/
theorem quotedAs_of_quoteColumn {expr sql : String} (h : quoteColumn expr = .ok sql) :
    QuotedAs expr sql := by
  refine ⟨h, ?_⟩
  obtain ⟨e, he, rfl⟩ := map_eq_ok.mp h
  obtain ⟨⟨argument, lead, text, trail⟩, hpiece, ⟨hlead, htrail⟩, hwritten, hreread⟩ :=
    Argument.readFrom_of_parse.1 _ e he
  -- only an expression is read as one
  cases argument with
  | literal _ => cases hreread
  | expr w =>
    obtain rfl : w.reread = e := by
      injection hreread
    exact ⟨lead, text, trail, w, hlead, htrail, hpiece.symm, hwritten,
      ColumnExpr.shownAs_sql (admissible_of_parse.1 _ _ he)⟩

end SqlAssembly

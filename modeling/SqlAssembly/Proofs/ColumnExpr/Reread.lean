import SqlAssembly.Proofs.ColumnExpr.Spelling

namespace SqlAssembly

/-!
# Quoting an expression again

The SQL text of a column expression is one of the ways to write it, so it is read as the expression
again, except for the aliases of its calls.  Such an alias is unquoted when it is read, so if the
name that it stands for is a quoted name itself, every reading takes one more pair of quotes away.

* `ColumnExpr.generates_sql` — the SQL text is what the grammar generates;
* `ColumnExpr.spells_sql`, `ColumnExpr.parse_sql` — what the SQL text is read as;
* `ColumnExpr.length_reread_le` — how much shorter it is.
-/

/-! ### Reading the SQL text -/

mutual

/-- The SQL text of an expression is an expression of the grammar. -/
theorem ColumnExpr.generates_sql (e : ColumnExpr) (h : e.Admissible) :
    Grammar.Generates .expression e.sql.toList := by
  cases e with
  | star => exact .star
  | column name =>
    obtain ⟨path, tail, hpath, htail, hsql⟩ :=
      Grammar.path_append_alias name h.parts_ne_nil h.length_le
    rw [ColumnExpr.sql, hsql]
    exact .column hpath htail
  | call function arguments alias? =>
    obtain ⟨hfunction, harguments, -⟩ := h
    rw [ColumnExpr.toList_sql_call]
    exact .call hfunction.isFunctionName (Argument.generates_sqls arguments harguments)
      (Grammar.isAlias_aliasSql alias?)

/-- The same for an argument. -/
theorem Argument.generates_sql (a : Argument) (h : a.Admissible) :
    Grammar.Generates .argument a.sql.toList := by
  cases a with
  | literal text => exact Grammar.generates_of_isLiteral h
  | expr e => exact .nested (ColumnExpr.generates_sql e h)

/-- The same for arguments, one by one. -/
theorem Argument.generates_sqls (arguments : List Argument)
    (h : Argument.AllAdmissible arguments) :
    ∀ s ∈ (Argument.sqls arguments).map String.toList, Grammar.Generates .argument s := by
  cases arguments with
  | nil => nofun
  | cons a rest =>
    rw [Argument.sqls, List.map_cons, List.forall_mem_cons]
    exact ⟨Argument.generates_sql a h.1, Argument.generates_sqls rest h.2⟩

end

/-- The slots of arguments that are joined with a comma and a blank. -/
def Argument.slots : List Argument → List Slot
  | [] => []
  | a :: rest => ⟨a, [], a.sql.toList, []⟩ :: rest.map fun b => ⟨b, [' '], b.sql.toList, []⟩

/-- A slot has one of the arguments in it, with its SQL text and blanks around it. -/
theorem Argument.mem_slots {arguments : List Argument} {slot : Slot} (h : slot ∈ slots arguments) :
    slot.argument ∈ arguments ∧ slot.text = slot.argument.sql.toList ∧ slot.Padded := by
  cases arguments with
  | nil => cases h
  | cons a rest =>
    rcases List.mem_cons.mp h with rfl | h
    · exact ⟨List.mem_cons_self, rfl, rfl, rfl⟩
    · obtain ⟨b, hb, rfl⟩ := List.mem_map.mp h
      exact ⟨List.mem_cons_of_mem a hb, rfl, rfl, rfl⟩

/-- The arguments of the slots are the arguments. -/
theorem Argument.map_argument_slots (arguments : List Argument) :
    (slots arguments).map Slot.argument = arguments := by
  cases arguments with
  | nil => rfl
  | cons a rest => simp [slots, Function.comp_def]

/-- Texts of arguments are taken one by one. -/
theorem Argument.sqls_eq_map (arguments : List Argument) : sqls arguments = arguments.map sql := by
  induction arguments with
  | nil => rfl
  | cons a rest ih => rw [sqls, ih, List.map_cons]

/-- Slots with commas between them are texts with commas and blanks between them. -/
theorem Argument.intercalate_slots (arguments : List Argument) :
    [','].intercalate ((slots arguments).map Slot.piece)
      = [',', ' '].intercalate ((sqls arguments).map String.toList) := by
  cases arguments with
  | nil => rfl
  | cons a rest =>
    rw [sqls_eq_map, List.map_cons, List.map_cons, ArgumentList.intercalate_blank]
    simp [slots, Slot.piece, Function.comp_def]

mutual

/-- The SQL text of an expression is one of the ways to write it. -/
theorem ColumnExpr.spells_sql (e : ColumnExpr) (h : e.Admissible) :
    Argument.Spells (.expr e) e.sql.toList := by
  cases e with
  | star => exact .star
  | column name => exact .column h.length_le (QualifiedName.spells_sql h)
  | call function arguments alias? =>
    obtain ⟨hfunction, harguments, halias⟩ := h
    have hspells := Argument.spells_sqls arguments harguments
    have hcall := @Argument.Spells.call _ [] [] _ _ _ hfunction.isFunctionName rfl rfl
      (fun slot hslot => (Argument.mem_slots hslot).2.2)
      (fun slot hslot => by
        obtain ⟨hmem, htext, -⟩ := Argument.mem_slots hslot
        rw [htext]
        exact hspells slot.argument hmem)
      (Segment.aliasText_aliasSql alias? fun name hname => by
        simpa using (halias name hname).ne_nil)
    -- the name is in capitals already, and the alias means the name that is behind it
    rw [hfunction.capitals, String.ofList_toList, Argument.map_argument_slots,
      Segment.map_meaning_ofAlias, Argument.intercalate_slots] at hcall
    rw [ColumnExpr.toList_sql_call]
    exact hcall

/-- The same for arguments, one by one. -/
theorem Argument.spells_sqls (arguments : List Argument) (h : Argument.AllAdmissible arguments) :
    ∀ a ∈ arguments, Argument.Spells a a.sql.toList := by
  cases arguments with
  | nil => nofun
  | cons a rest =>
    rw [List.forall_mem_cons]
    refine ⟨?_, Argument.spells_sqls rest h.2⟩
    cases a with
    | expr e => exact ColumnExpr.spells_sql e h.1
    | literal text =>
      have hliteral : Argument.isLiteral text.toList = true := h.1
      have hspells := Argument.spells_of_isLiteral hliteral
      rwa [String.ofList_toList] at hspells

end

/-- The SQL text of an expression is read as the expression with the aliases of its calls unquoted
once more, if all of them pass the check. -/
theorem ColumnExpr.parse_sql (e : ColumnExpr) (h : e.Admissible) :
    ColumnExpr.parse e.sql.toList
      = (Identifier.checkAll e.callAliases).map fun _ => e.reread := by
  have hread := parse_of_spells (e.spells_sql h) e rfl (e.not_denied_of_mem_names h) [] [] rfl rfl
  rwa [List.nil_append, List.append_nil] at hread

/-! ### What a second reading takes away -/

/-- A name that is written as a quoted name itself. -/
def Identifier.isQuotedName (name : String) : Bool := (quotedName? name.toList).isSome

/-- A name that is no quoted name, told by a Boolean for counting. -/
theorem Identifier.isQuotedName_eq_false {name : String} :
    isQuotedName name = false ↔ quotedName? name.toList = none := by
  simp [isQuotedName]

/-- Doubling quotes makes no text shorter. -/
theorem Text.length_le_doubled (q : Char) (s : List Char) : s.length ≤ (doubled q s).length := by
  induction s with
  | nil => exact Nat.le_refl 0
  | cons c s ih =>
    unfold doubled
    split <;> simp only [List.length_cons] <;> omega

/-- The length of a joined text is that of its parts and of the separators. -/
theorem Text.length_intercalate (sep : List Char) (texts : List (List Char)) :
    (sep.intercalate texts).length
      = texts.flatten.length + sep.length * (texts.length - 1) := by
  induction texts with
  | nil => rfl
  | cons s texts ih =>
    cases texts with
    | nil => simp
    | cons t texts =>
      rw [List.intercalate_cons_cons, List.length_append, List.length_append, ih]
      simp only [List.flatten_cons, List.length_append, List.length_cons, Nat.add_sub_cancel,
        Nat.mul_add]
      omega

/-- The quoted form of the name that a quoted name stands for is that quoted name. -/
theorem Identifier.quoted_unquoted {name : String} (h : isQuotedName name = true) :
    quoted (unquoted name) = name := by
  obtain ⟨inner, hinner⟩ := Option.isSome_iff_exists.mp h
  obtain ⟨hunquote, -⟩ := Option.filter_eq_some_iff.mp hinner
  rw [quoted, unquoted, String.toList_ofList, decode, hinner, Option.getD_some,
    ← Text.eq_quoted_of_unquote? hunquote, String.ofList_toList]

/-- Unquoting an alias makes it shorter if it is a quoted name, and leaves it as it is if not. -/
theorem length_aliasSql_unquoted (alias? : Option String) :
    (aliasSql (alias?.map Identifier.unquoted)).toList.length
        + alias?.toList.countP Identifier.isQuotedName
      ≤ (aliasSql alias?).toList.length := by
  cases alias? with
  | none => simp
  | some name =>
    rw [Option.map_some, Option.toList_some, List.countP_singleton]
    split
    · next hquoted =>
      -- the name was its own quoted form, so at least the two quotes around it are gone
      have hlength := Text.length_le_doubled '"' name.toList
      rw [aliasSql, aliasSql, Identifier.quoted_unquoted hquoted]
      simp only [Identifier.quoted, Text.quoted, String.toList_append, List.length_append,
        String.toList_ofList, List.length_cons]
      omega
    · next hplain =>
      rw [Identifier.unquoted_of_quotedName?
        (Identifier.isQuotedName_eq_false.mp (Bool.eq_false_iff.mpr hplain))]
      exact Nat.le_refl _

mutual

/-- Every alias that is a quoted name makes the text shorter when it is unquoted once more. -/
theorem ColumnExpr.length_reread_le (e : ColumnExpr) :
    e.reread.sql.toList.length + e.callAliases.countP Identifier.isQuotedName
      ≤ e.sql.toList.length := by
  cases e with
  | star => exact Nat.le_refl _
  | column name => exact Nat.le_refl _
  | call function arguments alias? =>
    have halias := length_aliasSql_unquoted alias?
    obtain ⟨hcount, hlength⟩ := Argument.length_rereadAll_le arguments
    -- there are as many arguments as before, and as many commas between them
    rw [ColumnExpr.reread, ColumnExpr.toList_sql_call, ColumnExpr.toList_sql_call,
      ColumnExpr.callAliases, List.countP_append]
    simp only [List.length_append, List.length_cons, Text.length_intercalate, List.length_map,
      hcount]
    omega

/-- The same for an argument. -/
theorem Argument.length_reread_le (a : Argument) :
    a.reread.sql.toList.length + a.callAliases.countP Identifier.isQuotedName
      ≤ a.sql.toList.length := by
  cases a with
  | literal text => exact Nat.le_refl _
  | expr e => exact ColumnExpr.length_reread_le e

/-- The same for arguments: there are as many, and all of them together are shorter. -/
theorem Argument.length_rereadAll_le (arguments : List Argument) :
    (Argument.sqls (Argument.rereadAll arguments)).length = (Argument.sqls arguments).length ∧
    ((Argument.sqls (Argument.rereadAll arguments)).map String.toList).flatten.length
        + (Argument.allCallAliases arguments).countP Identifier.isQuotedName
      ≤ ((Argument.sqls arguments).map String.toList).flatten.length := by
  cases arguments with
  | nil => exact ⟨rfl, Nat.le_refl _⟩
  | cons a rest =>
    -- the first argument and the others become shorter on their own
    have hhead := Argument.length_reread_le a
    obtain ⟨hcount, hlength⟩ := Argument.length_rereadAll_le rest
    simp only [Argument.rereadAll, Argument.sqls, Argument.allCallAliases, List.length_cons,
      List.map_cons, List.flatten_cons, List.length_append, List.countP_append, hcount]
    exact ⟨trivial, by omega⟩

end

/-! ### Quoting again -/

/-- Quoting what was quoted unquotes the aliases of its calls once more. -/
theorem quoteColumn_sql {e : ColumnExpr} (h : e.Admissible) :
    quoteColumn e.sql = (Identifier.checkAll e.callAliases).map fun _ => e.reread.sql := by
  rw [quoteColumn, ColumnExpr.parse_sql e h]
  cases Identifier.checkAll e.callAliases <;> rfl

/-- Quoting is idempotent on a column expression exactly if no alias of a call in it stands for a
name that is a quoted name itself. -/
theorem quoteColumn_idempotent_iff {expr q : String} (h : quoteColumn expr = .ok q) :
    ∃ e, ColumnExpr.parse expr.toList = .ok e ∧ e.sql = q ∧
      (quoteColumn q = .ok q ↔
        ∀ name ∈ e.callAliases, Identifier.quotedName? name.toList = none) := by
  obtain ⟨e, he, rfl⟩ := map_eq_ok.mp h
  have hadmissible := admissible_of_parse.1 expr.toList e he
  refine ⟨e, he, rfl, ?_⟩
  rw [quoteColumn_sql hadmissible]
  constructor
  · intro hq name hname
    obtain ⟨⟨⟩, -, hsql⟩ := map_eq_ok.mp hq
    -- the text would be shorter if an alias were a quoted name
    have hlength := e.length_reread_le
    rw [hsql] at hlength
    have hcount : e.callAliases.countP Identifier.isQuotedName = 0 := by omega
    rw [List.countP_eq_zero] at hcount
    exact Identifier.isQuotedName_eq_false.mp (Bool.eq_false_iff.mpr (hcount name hname))
  · intro hplain
    -- the aliases stand for themselves, so what was checked before is checked again
    have hcheck : Identifier.checkAll e.callAliases = .ok () := by
      refine Identifier.checkAll_eq_ok fun name hname => ?_
      have hdenied := e.not_denied_of_mem_names hadmissible name (e.callAliases_subset hname)
      exact Identifier.check_of_quotedName? (hplain name hname) hdenied
    rw [hcheck, e.reread_eq hplain]
    rfl

/-- Calls within calls, with quotes, commas and parentheses in names, aliases and literals: none of
the aliases is a quoted name. -/
theorem quoteColumn_idempotent_iff_nested :
    ∃ e, ColumnExpr.parse "f(g(\"a\"\".b\" x, ',)') \"\"\"n\") y".toList = .ok e ∧
      e.sql = "F(G(\"a\"\".b\" AS \"x\", ',)') AS \"\"\"n\") AS \"y\"" ∧
      (quoteColumn "F(G(\"a\"\".b\" AS \"x\", ',)') AS \"\"\"n\") AS \"y\""
          = .ok "F(G(\"a\"\".b\" AS \"x\", ',)') AS \"\"\"n\") AS \"y\"" ↔
        ∀ name ∈ e.callAliases, Identifier.quotedName? name.toList = none) :=
  quoteColumn_idempotent_iff (by decide +kernel)

/-- An alias between three pairs of quotes loses one pair each time. -/
theorem quoteColumn_not_idempotent :
    quoteColumn "COUNT(*) AS \"\"\"\"\"\"\"a\"\"\"\"\"\"\"" = .ok "COUNT(*) AS \"\"\"a\"\"\"" ∧
      quoteColumn "COUNT(*) AS \"\"\"a\"\"\"" = .ok "COUNT(*) AS \"a\"" :=
  ⟨by decide +kernel, by decide +kernel⟩

end SqlAssembly

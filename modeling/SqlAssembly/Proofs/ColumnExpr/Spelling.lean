import SqlAssembly.Proofs.ColumnExpr.Admissible

namespace SqlAssembly

/-!
# However an expression is written

An expression may be written with blanks around its arguments, words or quoted names, letters in
either case, and AS in front of an alias or not.  Whichever way it is written, it is read as that
expression, so its quoted form is always the same.

* `Argument.Spells` — the ways to write an expression, or an argument of a call;
* `Argument.Spells.keeps`, `Argument.Spells.trimmed` — such a text stays whole among arguments;
* `Argument.split_slots` — the arguments of a call are found again;
* `ColumnExpr.parse_of_spells` — every way to write an expression is read as the expression;
* `ColumnExpr.canonical`, `quoteColumn_of_spells` — and its canonical text is given back.
-/

/-! ### The ways to write an expression -/

/-- An argument of a call, its text, and the blanks around that. -/
structure Argument.Slot where
  argument : Argument
  before : List Char
  text : List Char
  behind : List Char

namespace Argument.Slot

/-- The text between two commas. -/
def piece (slot : Slot) : List Char := slot.before ++ (slot.text ++ slot.behind)

/-- There are only blanks around the argument. -/
def Padded (slot : Slot) : Prop :=
  Text.allBlank slot.before = true ∧ Text.allBlank slot.behind = true

end Argument.Slot

/-- How an argument of a call may be written: a number, a string, or an expression. -/
inductive Argument.Spells : Argument → List Char → Prop
  | number {s : List Char} : Grammar.IsNumber s → Spells (.literal (String.ofList s)) s
  | string {s : List Char} : Grammar.IsString s → Spells (.literal (String.ofList s)) s
  | star : Spells (.expr .star) ['*']
  | column {name : QualifiedName} {s : List Char} : name.parts.length ≤ 3 →
    QualifiedName.Spells name s → Spells (.expr (.column name)) s
  | call {function gap pad tail : List Char} {slots : List Slot} {alias? : Option Segment} :
    Grammar.IsFunctionName function → Text.allBlank gap = true → Text.allBlank pad = true →
    (∀ slot ∈ slots, slot.Padded) → (∀ slot ∈ slots, Spells slot.argument slot.text) →
    Segment.AliasText alias? tail →
    Spells
      (.expr (.call (String.ofList (function.map Text.upper)) (slots.map Slot.argument)
        (alias?.map Segment.meaning)))
      (function ++ (gap ++ '(' ::
        (pad ++ [','].intercalate (slots.map Slot.piece) ++ ')' :: tail)))

namespace Argument

open ArgumentList Grammar

/-- A literal is a number or a string. -/
theorem spells_of_isLiteral {s : List Char} (h : isLiteral s = true) :
    Spells (.literal (String.ofList s)) s := by
  rw [isLiteral, Bool.or_eq_true] at h
  rcases h with hnumber | hstring
  · exact .number (isNumber_of_isNumber hnumber)
  · obtain ⟨content, hcontent⟩ := Option.isSome_iff_exists.mp hstring
    exact .string ⟨content, Text.eq_quoted_of_unquote? hcontent⟩

/-! ### Arguments stay whole -/

/-- The commas between the arguments of a call stand inside of its parentheses. -/
theorem keeps_pieces {slots : List Slot} (hpadded : ∀ slot ∈ slots, slot.Padded)
    (h : ∀ slot ∈ slots, Keeps 0 slot.text) :
    Keeps 1 ([','].intercalate (slots.map Slot.piece)) := by
  refine .intercalate (.comma (by decide)) fun s hs => ?_
  obtain ⟨slot, hslot, rfl⟩ := List.mem_map.mp hs
  obtain ⟨hbefore, hbehind⟩ := hpadded slot hslot
  exact (Keeps.blanks hbefore).append
    (((h slot hslot).mono (by decide)).append (.blanks hbehind))

/-- However an argument is written, it separates nothing and leaves nothing open. -/
theorem Spells.keeps {a : Argument} {s : List Char} (h : Spells a s) : Keeps 0 s := by
  induction h with
  | number h => exact keeps_of_isNumber h
  | string h => exact keeps_of_isString h
  | star => exact .plain (by decide)
  | column _ h =>
    cases h with
    | segments _ hpath htail => exact (keeps_of_path hpath).append (keeps_of_aliasText htail)
  | call hfunction hgap hpad hpadded _ htail ih =>
    exact keeps_call hfunction hgap ((Keeps.blanks hpad).append (keeps_pieces hpadded ih)) htail

/-- However an argument is written, it has no blanks at its ends. -/
theorem Spells.trimmed {a : Argument} {s : List Char} (h : Spells a s) : Text.Trimmed s := by
  cases h with
  | number h => exact trimmed_of_isNumber h
  | string h => exact trimmed_of_isString h
  | star => exact ⟨⟨'*', rfl, by decide⟩, ⟨'*', rfl, by decide⟩⟩
  | column _ h =>
    cases h with
    | segments hne hpath htail => exact trimmed_append_alias (trimmed_of_path hne hpath) htail
  | call hfunction _ _ _ _ htail => exact trimmed_call hfunction _ _ htail

/-- An expression begins with a star, a quote or a letter. -/
theorem Spells.exists_head {e : ColumnExpr} {s : List Char} (h : Spells (.expr e) s) :
    ∃ c t, s = c :: t ∧ (c = '*' ∨ c = '"' ∨ isFunctionHead c = true) := by
  cases h with
  | star => exact ⟨'*', [], rfl, .inl rfl⟩
  | column _ h =>
    obtain ⟨c, cs, hcs, hc⟩ := h.exists_head
    exact ⟨c, cs, hcs, .inr hc⟩
  | call hfunction _ _ _ _ _ =>
    obtain ⟨c, cs, rfl, hc, -⟩ := hfunction
    exact ⟨c, _, rfl, .inr (.inr hc)⟩

/-- A text is no star if it does not begin with one. -/
theorem Spells.trim_ne_star {a : Argument} {s : List Char} (h : Spells a s) {c : Char}
    (hhead : s.head? = some c) (hc : c ≠ '*') {lead trail : List Char}
    (hlead : Text.allBlank lead = true) (htrail : Text.allBlank trail = true) :
    Text.trim (lead ++ (s ++ trail)) ≠ ['*'] := by
  rw [h.trimmed.trim_padded hlead htrail]
  rintro rfl
  exact hc (Option.some.inj hhead).symm

/-- The arguments of a call are found again, whatever blanks are around them. -/
theorem split_slots {slots : List Slot} (hpadded : ∀ slot ∈ slots, slot.Padded)
    (hspells : ∀ slot ∈ slots, Spells slot.argument slot.text) {pad : List Char}
    (hpad : Text.allBlank pad = true) :
    split (Text.trim (pad ++ [','].intercalate (slots.map Slot.piece)))
      = slots.map Slot.text := by
  rw [split_trim, split_blanks_append hpad]
  exact split_padded hpadded fun slot hslot =>
    ⟨(hspells slot hslot).trimmed, (hspells slot hslot).keeps 0 (Int.le_refl 0)⟩

end Argument

/-! ### Reading an expression however it is written -/

/-- However a name is written, it is no star, and no call: a quote stands in front of every
parenthesis in it. -/
theorem QualifiedName.Spells.not_star_not_call {name : QualifiedName} {s lead trail : List Char}
    (h : Spells name s) (hlead : Text.allBlank lead = true) (htrail : Text.allBlank trail = true) :
    Text.trim (lead ++ (s ++ trail)) ≠ ['*'] ∧ CallShape.read (lead ++ (s ++ trail)) = none := by
  have htrimmed : Text.Trimmed s := by
    cases h with
    | segments hne hpath htail =>
      exact Grammar.trimmed_append_alias (Grammar.trimmed_of_path hne hpath) htail
  have hsheltered : CallShape.Sheltered s := by
    cases h with
    | segments _ hpath htail => exact (CallShape.Sheltered.path hpath).append (.aliasText htail)
  refine ⟨?_, CallShape.read_of_sheltered
    ((CallShape.Sheltered.blanks hlead).append (hsheltered.append (.blanks htrail)))⟩
  rw [htrimmed.trim_padded hlead htrail]
  rintro rfl
  obtain ⟨c, cs, hcs, hc⟩ := h.exists_head
  obtain ⟨rfl, -⟩ := List.cons.inj hcs
  exact absurd hc (by decide)

/-- A name that is written with segments and not refused is one that is read. -/
theorem QualifiedName.admissible_of_spells {name : QualifiedName} {s : List Char} {n : Nat}
    (h : Spells name s) (hlen : name.parts.length ≤ n)
    (hnames : ∀ part ∈ name.parts ++ name.alias?.toList, Denial.of? part.toList = none) :
    name.Admissible n := by
  rw [List.forall_mem_append] at hnames
  cases h with
  | segments hne hpath htail =>
    refine ⟨by simpa using hne, hlen, fun part hpart => ⟨?_, hnames.1 part hpart⟩,
      fun part hpart => ⟨?_, hnames.2 part (by simpa using hpart)⟩⟩
    -- a part is what its segment means, and a segment is never empty
    · obtain ⟨segment, hsegment, rfl⟩ := List.mem_map.mp hpart
      simpa using (hpath segment hsegment).wellFormed.name_ne_nil
    · obtain ⟨segment, hsegment, rfl⟩ := Option.map_eq_some_iff.mp hpart
      simpa using (htail.proper segment hsegment).wellFormed.name_ne_nil

/-- The arguments are read if each of them that is an expression is. -/
theorem Argument.parseAll_slots {slots : List Slot}
    (hspells : ∀ slot ∈ slots, Spells slot.argument slot.text)
    (hread : ∀ slot ∈ slots, ∀ e, slot.argument = .expr e →
      ColumnExpr.parse slot.text = (Identifier.checkAll e.callAliases).map fun _ => e.reread) :
    parseAll (slots.map Slot.text)
      = (Identifier.checkAll (allCallAliases (slots.map Slot.argument))).map
          fun _ => rereadAll (slots.map Slot.argument) := by
  induction slots with
  | nil =>
    rw [List.map_nil, parseAll.eq_def]
    rfl
  | cons slot slots ih =>
    rw [List.forall_mem_cons] at hspells hread
    rw [List.map_cons, parseAll_cons, ih hspells.2 hread.2, List.map_cons, allCallAliases,
      Identifier.checkAll_append]
    -- which of the two an argument is shows at its first character
    cases hargument : slot.argument with
    | literal text =>
      have hslot := hspells.1
      rw [hargument] at hslot
      have hliteral : isLiteral slot.text = true ∧ String.ofList slot.text = text := by
        cases hslot with
        | number h => exact ⟨isLiteral_of_isNumber h, rfl⟩
        | string h => exact ⟨isLiteral_of_isString h, rfl⟩
      rw [if_pos hliteral.1, hliteral.2]
      cases Identifier.checkAll (allCallAliases (slots.map Slot.argument)) <;> rfl
    | expr e =>
      have hslot := hspells.1
      rw [hargument] at hslot
      obtain ⟨c, t, hct, hc⟩ := hslot.exists_head
      have hliteral : isLiteral slot.text = false := by rw [hct, isLiteral_eq_false hc]
      rw [if_neg (Bool.eq_false_iff.mp hliteral), hread.1 e hargument, callAliases]
      cases Identifier.checkAll e.callAliases with
      | error e => rfl
      | ok u => cases Identifier.checkAll (allCallAliases (slots.map Slot.argument)) <;> rfl

/-- However an expression is written, it is read as the expression with the aliases of its calls
unquoted once more, if all of them pass the check. -/
theorem ColumnExpr.parse_of_spells {a : Argument} {s : List Char} (h : Argument.Spells a s) :
    ∀ e, a = .expr e → (∀ name ∈ e.names, Denial.of? name.toList = none) → ∀ lead trail,
      Text.allBlank lead = true → Text.allBlank trail = true →
      parse (lead ++ (s ++ trail)) = (Identifier.checkAll e.callAliases).map fun _ => e.reread := by
  -- along the ways to write an argument; what is known of the arguments of a call is that they are
  -- read without blanks around them, for their list is trimmed when it is split
  induction h with
  | number _ => nofun
  | string _ => nofun
  | star =>
    rintro _ ⟨⟩ - lead trail hlead htrail
    exact parse_star (Argument.Spells.star.trimmed.trim_padded hlead htrail)
  | @column name s hlen hname =>
    rintro _ ⟨⟩ hnames lead trail hlead htrail
    obtain ⟨hstar, hcall⟩ := hname.not_star_not_call hlead htrail
    have hadmissible : name.Admissible NameRole.column.maxParts :=
      QualifiedName.admissible_of_spells hname hlen hnames
    rw [parse_column hstar hcall, QualifiedName.parse_of_spells hadmissible hname hlead htrail]
    rfl
  | @call function gap pad tail slots alias? hfunction hgap hpad hpadded hspells htail ih =>
    rintro _ ⟨⟩ hnames lead trail hlead htrail
    rw [names, List.forall_mem_cons, List.forall_mem_append] at hnames
    obtain ⟨hdenied, harguments, -⟩ := hnames
    have hcall := Argument.Spells.call hfunction hgap hpad hpadded hspells htail
    have hstar : Text.trim (lead ++ (function ++ (gap ++ '(' ::
        (pad ++ [','].intercalate (slots.map Argument.Slot.piece) ++ ')' :: tail)) ++ trail))
        ≠ ['*'] := by
      obtain ⟨c, cs, rfl, hc, -⟩ := hfunction
      refine hcall.trim_ne_star (c := c) rfl ?_ hlead htrail
      rintro rfl
      exact absurd hc (by decide)
    have hread := CallShape.read_call htail htrail hfunction hlead hgap
      (pad ++ [','].intercalate (slots.map Argument.Slot.piece))
    -- the name is checked as it is written, and named in capitals
    have hcheck : Identifier.check function = .ok () := by
      obtain ⟨hne, htails⟩ := Grammar.forall_of_isFunctionName hfunction
      refine Identifier.check_functionName hfunction ?_
      rwa [String.toList_ofList, Denial.of?_upper hne htails] at hdenied
    have hparseAll := Argument.parseAll_slots hspells fun slot hslot e he => by
      have hslotNames : ∀ name ∈ e.names, Denial.of? name.toList = none := fun name hname =>
        harguments name (Argument.names_subset (List.mem_map_of_mem hslot) (by rwa [he]))
      have hslotRead := ih slot hslot e he hslotNames [] [] rfl rfl
      rwa [List.nil_append, List.append_nil] at hslotRead
    simp only [List.append_assoc, List.cons_append] at hstar hread ⊢
    rw [parse_call hstar hread]
    dsimp only
    rw [hcheck, Argument.split_slots hpadded hspells hpad, hparseAll, callAlias_eq, callAliases,
      Identifier.checkAll_append]
    -- the checks are made in this order, whichever fails first
    cases Identifier.checkAll (Argument.allCallAliases (slots.map Argument.Slot.argument)) with
    | error e => rfl
    | ok u => cases Identifier.checkAll (alias?.map Segment.meaning).toList <;> rfl

/-! ### The canonical text -/

namespace Text

/-- Nothing, or ` AS ` and the alias between double quotes. -/
def canonicalAlias : Option String → List Char
  | none => []
  | some name => " AS ".toList ++ quoted '"' name.toList

end Text

mutual

/-- The canonical text of an expression: function names in capitals, arguments with a comma and a
blank between them, every part and alias between double quotes, and every literal as it is. -/
def ColumnExpr.canonical : ColumnExpr → List Char
  | .star => ['*']
  | .column name =>
    ['.'].intercalate (name.parts.map fun part => Text.quoted '"' part.toList)
      ++ Text.canonicalAlias name.alias?
  | .call function arguments alias? =>
    function.toList.map Text.upper ++ '(' ::
      ([',', ' '].intercalate (Argument.canonicals arguments) ++ ')' :: Text.canonicalAlias alias?)

/-- The canonical text of an argument. -/
def Argument.canonical : Argument → List Char
  | .literal text => text.toList
  | .expr e => e.canonical

/-- The canonical texts of arguments. -/
def Argument.canonicals : List Argument → List (List Char)
  | [] => []
  | a :: rest => a.canonical :: Argument.canonicals rest

end

/-- The text of an alias is its canonical text. -/
theorem toList_aliasSql (alias? : Option String) :
    (aliasSql alias?).toList = Text.canonicalAlias alias? := by
  cases alias? with
  | none => rfl
  | some name => exact toList_aliasSql_some name

/-- The text of a call, character by character. -/
theorem ColumnExpr.toList_sql_call (function : String) (arguments : List Argument)
    (alias? : Option String) :
    (ColumnExpr.call function arguments alias?).sql.toList
      = function.toList ++ '(' :: ([',', ' '].intercalate
          ((Argument.sqls arguments).map String.toList) ++ ')' :: (aliasSql alias?).toList) := by
  simp [ColumnExpr.sql, String.toList_intercalate]

/-- The texts of arguments are canonical if each of them is. -/
theorem Argument.map_toList_sqls {arguments : List Argument}
    (h : ∀ a ∈ arguments, a.sql.toList = a.canonical) :
    (sqls arguments).map String.toList = canonicals arguments := by
  induction arguments with
  | nil => rfl
  | cons a rest ih =>
    rw [List.forall_mem_cons] at h
    rw [sqls, List.map_cons, canonicals, h.1, ih h.2]

/-- The SQL text of whatever can be written is its canonical text. -/
theorem Argument.Spells.toList_sql {a : Argument} {s : List Char} (h : Spells a s) :
    a.sql.toList = a.canonical := by
  induction h with
  | number _ => rfl
  | string _ => rfl
  | star => rfl
  | @column name s _ _ =>
    have htext : (name.parts.map String.toList).map (Text.quoted '"')
        = name.parts.map fun part => Text.quoted '"' part.toList := List.map_map
    rw [sql, ColumnExpr.sql, QualifiedName.toList_sql, htext, toList_aliasSql]
    rfl
  | @call function gap pad tail slots alias? hfunction _ _ _ _ _ ih =>
    have hcapitals : (function.map Text.upper).map Text.upper = function.map Text.upper :=
      Grammar.map_upper_upper (Grammar.forall_of_isFunctionName hfunction).2
    have harguments := @map_toList_sqls (slots.map Slot.argument) fun a ha => by
      obtain ⟨slot, hslot, rfl⟩ := List.mem_map.mp ha
      exact ih slot hslot
    rw [sql, ColumnExpr.toList_sql_call, harguments, toList_aliasSql, canonical,
      ColumnExpr.canonical, String.toList_ofList, hcapitals]

/-- However an expression is written, it is accepted and its canonical text is given back, if no
name in it is refused and no alias of a call is a quoted name itself. -/
theorem quoteColumn_of_spells {e : ColumnExpr} {s lead trail : List Char}
    (h : Argument.Spells (.expr e) s) (hlead : Text.allBlank lead = true)
    (htrail : Text.allBlank trail = true)
    (hnames : ∀ name ∈ e.names, Denial.of? name.toList = none)
    (haliases : ∀ name ∈ e.callAliases, Identifier.quotedName? name.toList = none) :
    quoteColumn (String.ofList (lead ++ (s ++ trail))) = .ok (String.ofList e.canonical) := by
  have hparse := ColumnExpr.parse_of_spells h e rfl hnames lead trail hlead htrail
  have hcheck : Identifier.checkAll e.callAliases = .ok () :=
    Identifier.checkAll_eq_ok fun name hname =>
      Identifier.check_of_quotedName? (haliases name hname)
        (hnames name (e.callAliases_subset hname))
  -- reading again changes nothing here, so the text is the canonical one
  have hsql : e.sql = String.ofList e.canonical := by
    have htext : e.sql.toList = e.canonical := h.toList_sql
    rw [← htext, String.ofList_toList]
  rw [quoteColumn, String.toList_ofList, hparse, hcheck, e.reread_eq haliases, ← hsql]
  rfl

/-- Calls within calls, with parentheses, commas and aliases in names and in a string, a call
without arguments whose alias is the word AS, and blanks wherever there may be some. -/
theorem quoteColumn_of_spells_nested :
    quoteColumn " g\t( f( \"t)\".x$ \"a,b\" , ') AS \"q''\"',at( ) as ) ,-1.5, *)\n aS \"(\" "
      = .ok "G(F(\"t)\".\"x$\" AS \"a,b\", ') AS \"q''\"', AT() AS \"as\"), -1.5, *) AS \"(\"" := by
  have htail : ∀ {c : Char} {p : Char → Bool}, p c = true → ∀ d ∈ [c], p d = true :=
    fun h => List.forall_mem_singleton.mpr h
  have hcolumn := Argument.Spells.column (by decide)
    (@QualifiedName.Spells.segments [.quoted ['t', ')'], .bare ['x', '$']] _ _
      (List.cons_ne_nil _ _)
      (List.forall_mem_cons.mpr ⟨List.cons_ne_nil _ _,
        List.forall_mem_singleton.mpr ⟨'x', ['$'], rfl, by decide, htail (by decide)⟩⟩)
      (@Segment.AliasText.plain [' '] (.quoted ['a', ',', 'b']) (List.cons_ne_nil _ _) rfl
        (List.cons_ne_nil _ _)))
  have hstring := Argument.Spells.string ⟨") AS \"q'\"".toList, rfl⟩
  have hat := @Argument.Spells.call ['a', 't'] [] [' '] _ [] _
    ⟨'a', ['t'], rfl, by decide, htail (by decide)⟩ rfl rfl nofun nofun
    (@Segment.AliasText.plain [' '] (.bare ['a', 's']) (List.cons_ne_nil _ _) rfl
      ⟨'a', ['s'], rfl, by decide, htail (by decide)⟩)
  have hf := @Argument.Spells.call ['f'] [] [] _
    [⟨_, [' '], _, [' ']⟩, ⟨_, [' '], _, []⟩, ⟨_, [], _, [' ']⟩] none
    ⟨'f', [], rfl, by decide, nofun⟩ rfl rfl
    (List.forall_mem_cons.mpr ⟨⟨rfl, rfl⟩,
      List.forall_mem_cons.mpr ⟨⟨rfl, rfl⟩, List.forall_mem_singleton.mpr ⟨rfl, rfl⟩⟩⟩)
    (List.forall_mem_cons.mpr ⟨hcolumn,
      List.forall_mem_cons.mpr ⟨hstring, List.forall_mem_singleton.mpr hat⟩⟩) .none
  have hdigit : ∀ {c : Char}, c.isDigit = true → Grammar.IsDigits [c] := fun h =>
    ⟨List.cons_ne_nil _ _, htail h⟩
  have hnumber : Argument.Spells (.literal _) ['-', '1', '.', '5'] :=
    .number ⟨['-'], ['1'], .inr rfl, hdigit (by decide), .inr ⟨['5'], hdigit (by decide), rfl⟩⟩
  have hg := @Argument.Spells.call ['g'] ['\t'] [] _
    [⟨_, [' '], _, [' ']⟩, ⟨_, [], _, []⟩, ⟨_, [' '], _, []⟩] _
    ⟨'g', [], rfl, by decide, nofun⟩ rfl rfl
    (List.forall_mem_cons.mpr ⟨⟨rfl, rfl⟩,
      List.forall_mem_cons.mpr ⟨⟨rfl, rfl⟩, List.forall_mem_singleton.mpr ⟨rfl, rfl⟩⟩⟩)
    (List.forall_mem_cons.mpr ⟨hf,
      List.forall_mem_cons.mpr ⟨hnumber, List.forall_mem_singleton.mpr .star⟩⟩)
    (@Segment.AliasText.word ['\n', ' '] ['a', 'S'] [' '] (.quoted ['(']) (List.cons_ne_nil _ _)
      rfl (by decide) (List.cons_ne_nil _ _) rfl (List.cons_ne_nil _ _))
  have hnested := @quoteColumn_of_spells _ _ [' '] [' '] hg rfl rfl (by decide +kernel)
    (by decide +kernel)
  exact hnested

end SqlAssembly

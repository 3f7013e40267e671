import SqlAssembly.Proofs.ColumnExpr.Written

namespace SqlAssembly

/-!
# Only written expressions are accepted

The converse of reading expressions however they are written: a text that is read as an expression
is one of the ways to write it, with blanks at its ends.  There is one exception.  A list of
arguments is split so that a blank piece at its end is no argument, so a comma may stand behind the
last one.

* `ArgumentList.exists_pieces` — a list is the pieces that are split from it, joined by commas;
* `Argument.ReadFrom`, `ColumnExpr.readFrom_of_parse` — what is read was written;
* `quoteColumn_accepts` — no other text is accepted, and what is known of those that are.
-/

open Sql

/-! ### Joining what was split -/

namespace ArgumentList

/-- A character put in front of the first piece stands in front of the joined text. -/
theorem intercalate_modifyHead (c : Char) {pieces : List (List Char)} (h : pieces ≠ []) :
    [','].intercalate (pieces.modifyHead (c :: ·)) = c :: [','].intercalate pieces := by
  obtain ⟨piece, pieces, rfl⟩ := List.exists_cons_of_ne_nil h
  cases pieces <;> simp [List.intercalate_cons_cons]

/-- There is a piece at least, though it may be empty. -/
theorem topLevel_ne_nil (depth : Int) (quote? : Option Char) (s : List Char) :
    topLevel depth quote? s ≠ [] := by
  fun_induction topLevel depth quote? s <;> simp_all

/-- The pieces between the separating commas make up the list. -/
theorem intercalate_topLevel (depth : Int) (quote? : Option Char) (s : List Char) :
    [','].intercalate (topLevel depth quote? s) = s := by
  have hne := topLevel_ne_nil
  -- a separating comma begins a new piece, any other character goes to the first one
  fun_induction topLevel depth quote? s with
  | case1 => rfl
  | case2 depth q c s ih => rw [intercalate_modifyHead c (hne _ _ _), ih]
  | case3 depth c s h ih =>
    rw [List.intercalate_cons_of_ne_nil (hne _ _ _), ih, h.1]
    rfl
  | case4 depth c s hcomma hquote ih => rw [intercalate_modifyHead c (hne _ _ _), ih]
  | case5 depth s hcomma hquote ih => rw [intercalate_modifyHead _ (hne _ _ _), ih]
  | case6 depth s hcomma hquote hopen ih => rw [intercalate_modifyHead _ (hne _ _ _), ih]
  | case7 depth c s hcomma hquote hopen hclose ih =>
    rw [intercalate_modifyHead c (hne _ _ _), ih]

/-- One more piece at the end brings one more comma. -/
theorem intercalate_concat {pieces : List (List Char)} (h : pieces ≠ []) (last : List Char) :
    [','].intercalate (pieces ++ [last]) = [','].intercalate pieces ++ ',' :: last := by
  induction pieces with
  | nil => exact absurd rfl h
  | cons piece pieces ih =>
    rcases eq_or_ne pieces [] with rfl | hne
    · simp [List.intercalate_cons_cons]
    · rw [List.cons_append, List.intercalate_cons_of_ne_nil (by simp), ih hne,
        List.intercalate_cons_of_ne_nil hne, List.append_assoc _ _ (',' :: last)]

/-- A list consists of the pieces that are split from it, with commas between them, and perhaps a
comma behind the last of them. -/
theorem exists_pieces (s : List Char) : ∃ pad pieces stray, Text.allBlank pad = true ∧
    Argument.Overhang true pieces stray ∧ s = pad ++ [','].intercalate pieces ++ stray ∧
    split s = pieces.map Text.trim := by
  have hjoined := intercalate_topLevel 0 none s
  obtain ⟨init, last, htop⟩ : ∃ init last, topLevel 0 none s = init ++ [last] := by
    obtain ⟨init, last, h⟩ := (List.eq_nil_or_concat _).resolve_left (topLevel_ne_nil 0 none s)
    exact ⟨init, last, by rw [h, List.concat_eq_append]⟩
  rw [htop] at hjoined
  rw [split, htop, List.map_append, List.map_singleton, List.getLast?_concat]
  by_cases hlast : Text.trim last = []
  · have hblank : Text.allBlank last = true := Text.allBlank_of_trim hlast
    rw [if_pos (congrArg some hlast), List.dropLast_concat]
    -- the blank piece is no argument, and all of the list if there is no other
    rcases eq_or_ne init [] with rfl | hne
    · exact ⟨last, [], [], hblank, .none, by simpa using hjoined.symm, rfl⟩
    · refine ⟨[], init, ',' :: last, rfl, .comma rfl hne hblank, ?_, rfl⟩
      rw [← hjoined, intercalate_concat hne, List.nil_append]
  -- the last piece is an argument as the others are, and nothing is left over
  · rw [if_neg fun h => hlast (Option.some.inj h)]
    exact ⟨[], init ++ [last], [], rfl, .none, by simpa using hjoined.symm, by simp⟩

end ArgumentList

/-! ### What is read was written -/

namespace Argument

/-- The text is a written argument between blanks, and what is read from it is the argument with the
aliases of its calls unquoted once more. -/
def ReadFrom (s : List Char) (a : Argument) : Prop :=
  ∃ slot : Slot, slot.piece = s ∧ slot.Padded ∧ Written true slot.argument slot.text ∧
    slot.argument.reread = a

/-- Blanks around a written argument widen its slot. -/
theorem ReadFrom.of_trim {s : List Char} {a : Argument} (h : ReadFrom (Text.trim s) a) :
    ReadFrom s a := by
  obtain ⟨slot, hpiece, ⟨hbefore, hbehind⟩, hwritten, ha⟩ := h
  obtain ⟨lead, trail, hlead, htrail, hs⟩ := Text.exists_trim s
  refine ⟨⟨slot.argument, lead ++ slot.before, slot.text, slot.behind ++ trail⟩, ?_, ⟨?_, ?_⟩,
    hwritten, ha⟩
  · rw [hs, ← hpiece]
    simp [Slot.piece]
  · rw [Text.allBlank, List.all_append, Bool.and_eq_true]
    exact ⟨hlead, hbefore⟩
  · rw [Text.allBlank, List.all_append, Bool.and_eq_true]
    exact ⟨hbehind, htrail⟩

/-- Pieces that arguments are read from are slots of written arguments. -/
theorem exists_slots {pieces : List (List Char)} {arguments : List Argument}
    (h : List.Forall₂ ReadFrom (pieces.map Text.trim) arguments) :
    ∃ slots : List Slot, slots.map Slot.piece = pieces ∧ (∀ slot ∈ slots, slot.Padded) ∧
      (∀ slot ∈ slots, Written true slot.argument slot.text) ∧
      rereadAll (slots.map Slot.argument) = arguments := by
  induction pieces generalizing arguments with
  | nil =>
    cases h
    exact ⟨[], rfl, nofun, nofun, rfl⟩
  | cons piece pieces ih =>
    cases h with
    | cons hpiece hpieces =>
      obtain ⟨slot, rfl, hpadded, hwritten, rfl⟩ := hpiece.of_trim
      obtain ⟨slots, rfl, hpaddeds, hwrittens, rfl⟩ := ih hpieces
      exact ⟨slot :: slots, rfl, List.forall_mem_cons.mpr ⟨hpadded, hpaddeds⟩,
        List.forall_mem_cons.mpr ⟨hwritten, hwrittens⟩, rfl⟩

/-- Whatever is read as an expression, or as arguments, was written so. -/
theorem readFrom_of_parse :
    (∀ s e, ColumnExpr.parse s = .ok e → ReadFrom s (.expr e)) ∧
    (∀ ps arguments, parseAll ps = .ok arguments → List.Forall₂ ReadFrom ps arguments) := by
  -- along the recursion of the two readers, one case for each way that they take
  refine ColumnExpr.parse.mutual_induct
    (fun s => ∀ e, ColumnExpr.parse s = .ok e → ReadFrom s (.expr e))
    (fun ps => ∀ arguments, parseAll ps = .ok arguments → List.Forall₂ ReadFrom ps arguments)
    ?star ?column ?call ?nil ?literal ?nested
  case star =>
    intro s hs e h
    rw [ColumnExpr.parse_star hs] at h
    obtain rfl := Except.ok.inj h
    refine ReadFrom.of_trim ?_
    rw [hs]
    exact ⟨⟨.expr .star, [], ['*'], []⟩, rfl, ⟨rfl, rfl⟩, .star, rfl⟩
  case column =>
    intro s hs hread e h
    rw [ColumnExpr.parse_column hs hread] at h
    obtain ⟨q, hq, rfl⟩ := map_eq_ok.mp h
    obtain ⟨lead, text, trail, hlead, htrail, rfl, hspells⟩ :=
      QualifiedName.exists_spells_of_parse hq
    exact ⟨⟨.expr (.column q), lead, text, trail⟩, rfl, ⟨hlead, htrail⟩,
      .column (Grammar.parts_of_parse hq).2 hspells, rfl⟩
  case call =>
    intro s hs call hread ih e h
    rw [ColumnExpr.parse_call hs hread] at h
    obtain ⟨⟨⟩, -, h⟩ := bind_eq_ok.mp h
    obtain ⟨arguments, harguments, h⟩ := bind_eq_ok.mp h
    obtain ⟨alias?, halias, h⟩ := bind_eq_ok.mp h
    obtain rfl := Except.ok.inj h
    obtain ⟨hfunction, lead, gap, list, tail, trail, hlead, hgap, htail, htrail, hlist, rfl⟩ :=
      CallShape.read_some hread
    obtain ⟨pad, pieces, stray, hpad, hstray, rfl, hsplit⟩ := ArgumentList.exists_pieces list
    -- the pieces of the list are read one by one, without the blanks around each
    have hall := ih arguments harguments
    rw [hlist, ArgumentList.split_trim, hsplit] at hall
    obtain ⟨slots, rfl, hpadded, hwritten, rfl⟩ := exists_slots hall
    -- the alias that is read is the one in the text, unquoted
    rw [callAlias_eq] at halias
    obtain ⟨⟨⟩, -, rfl⟩ := map_eq_ok.mp halias
    exact ⟨⟨_, lead, _, trail⟩, by simp [Slot.piece], ⟨hlead, htrail⟩,
      .call hfunction hgap hpad hpadded hwritten hstray htail, rfl⟩
  case nil =>
    intro arguments h
    rw [parseAll.eq_def] at h
    obtain rfl := Except.ok.inj h
    exact .nil
  case literal =>
    intro p rest hp ih arguments h
    rw [parseAll_cons, if_pos hp] at h
    obtain ⟨argument, hargument, h⟩ := bind_eq_ok.mp h
    obtain ⟨others, hothers, h⟩ := bind_eq_ok.mp h
    obtain rfl := Except.ok.inj hargument
    obtain rfl := Except.ok.inj h
    exact .cons ⟨⟨_, [], p, []⟩, by simp [Slot.piece], ⟨rfl, rfl⟩,
      written_of_spells (spells_of_isLiteral hp), rfl⟩ (ih others hothers)
  case nested =>
    intro p rest hp ihRest ihHead arguments h
    rw [parseAll_cons, if_neg hp] at h
    obtain ⟨argument, hargument, h⟩ := bind_eq_ok.mp h
    obtain ⟨others, hothers, h⟩ := bind_eq_ok.mp h
    obtain ⟨e, he, rfl⟩ := map_eq_ok.mp hargument
    obtain rfl := Except.ok.inj h
    exact .cons (ihHead e he) (ihRest others hothers)

end Argument

/-! ### What is accepted -/

/-- In an expression that is written as it may be, no comma stands in front of a closing
parenthesis. -/
theorem Argument.Spells.not_comma_paren {a : Argument} {s lead trail : List Char}
    (h : Spells a s) (hlead : Text.allBlank lead = true) (htrail : Text.allBlank trail = true) :
    ¬ [.symbol ',', .symbol ')'] <:+: tokens (lead ++ (s ++ trail)) := by
  have horderly : Orderly false (tokens s) := (written_of_spells h).orderly
  rw [tokens_padded hlead htrail horderly.closed]
  -- the two would be neighbours, and such neighbours are excluded
  intro hpair
  have hfollow : MayFollow false (.symbol ',') (.symbol ')') := by
    simpa using horderly.chain.infix hpair
  exact hfollow.2 rfl rfl rfl

/-- Only written expressions are accepted, with blanks at their ends: all quotes are closed, all
parentheses match, and no argument is blank, inside of whatever calls it stands.  The one exception
is a comma with nothing behind it at the end of a list of arguments. -/
theorem quoteColumn_accepts {expr sql : String} (h : quoteColumn expr = .ok sql) :
    (∃ lead text trail e, Text.allBlank lead = true ∧ Text.allBlank trail = true ∧
      expr.toList = lead ++ (text ++ trail) ∧ Argument.Written true (.expr e) text ∧
      e.reread.sql = sql) ∧
    Closed expr.toList ∧ Balanced (tokens expr.toList) ∧
    ¬ [.symbol '(', .symbol ','] <:+: tokens expr.toList ∧
    ¬ [.symbol ',', .symbol ','] <:+: tokens expr.toList ∧
    ((∃ lead text trail e, Text.allBlank lead = true ∧ Text.allBlank trail = true ∧
        expr.toList = lead ++ (text ++ trail) ∧ Argument.Spells (.expr e) text) ↔
      ¬ [.symbol ',', .symbol ')'] <:+: tokens expr.toList) := by
  obtain ⟨e, he, rfl⟩ := map_eq_ok.mp h
  obtain ⟨⟨argument, lead, text, trail⟩, hpiece, ⟨hlead, htrail⟩, hwritten, hreread⟩ :=
    Argument.readFrom_of_parse.1 _ e he
  -- only an expression is read as one
  cases argument with
  | literal _ => cases hreread
  | expr w =>
    obtain rfl : w.reread = e := by
      injection hreread
    -- the five facts about tokens follow from the order of those of the written text
    have horderly : Orderly true (tokens text) := hwritten.orderly
    have htokens : tokens expr.toList = tokens text := by
      rw [← hpiece]
      exact tokens_padded hlead htrail horderly.closed
    have hfollow : ∀ {t u}, [t, u] <:+: tokens text → MayFollow true t u := fun hpair => by
      simpa using horderly.chain.infix hpair
    have hsame : expr.toList = lead ++ (text ++ trail) := hpiece.symm
    rw [Closed, htokens]
    refine ⟨⟨lead, text, trail, w, hlead, htrail, hsame, hwritten, rfl⟩, horderly.closed,
      horderly.balanced, ?_, ?_, ?_, ?_⟩
    · exact fun hpair => ((hfollow hpair).1 rfl).1 rfl
    · exact fun hpair => ((hfollow hpair).1 rfl).2 rfl
    -- if any way of writing it has no such comma, the text itself has none
    · rintro ⟨lead', text', trail', e', hlead', htrail', hsame', hspells⟩
      rw [← htokens, hsame']
      exact hspells.not_comma_paren hlead' htrail'
    · exact fun hcomma =>
        ⟨lead, text, trail, w, hlead, htrail, hsame, Argument.spells_of_written hwritten hcomma⟩

/-- Calls within calls, with commas and parentheses in names and in a string. -/
theorem quoteColumn_accepts_nested :
    let expr := " f( g(a.b \"x,)\"), 'it''s ,) (' ,-1.5\t, *, h( )) AS \"q,(\""
    quoteColumn expr
        = .ok "F(G(\"a\".\"b\" AS \"x,)\"), 'it''s ,) (', -1.5, *, H()) AS \"q,(\"" ∧
      Closed expr.toList ∧ Balanced (tokens expr.toList) ∧
      ∃ lead text trail e, Text.allBlank lead = true ∧ Text.allBlank trail = true ∧
        expr.toList = lead ++ (text ++ trail) ∧ Argument.Spells (.expr e) text := by
  intro expr
  have h : quoteColumn expr
      = .ok "F(G(\"a\".\"b\" AS \"x,)\"), 'it''s ,) (', -1.5, *, H()) AS \"q,(\"" := by
    decide +kernel
  obtain ⟨-, hclosed, hbalanced, -, -, hspells⟩ := quoteColumn_accepts h
  exact ⟨h, hclosed, hbalanced, hspells.mpr (by decide +kernel)⟩

/-- A blank argument is refused in front of a comma, but not behind the last one, though no
expression is written so. -/
theorem quoteColumn_comma_accepted :
    quoteColumn "COUNT(,a)" = .error (.blankColumn "") ∧
      quoteColumn "COUNT(a,)" = .ok "COUNT(\"a\")" ∧
      ¬ ∃ lead text trail e, Text.allBlank lead = true ∧ Text.allBlank trail = true ∧
        "COUNT(a,)".toList = lead ++ (text ++ trail) ∧ Argument.Spells (.expr e) text := by
  refine ⟨by decide +kernel, by decide +kernel, ?_⟩
  rintro ⟨lead, text, trail, e, hlead, htrail, hsame, hspells⟩
  have hcomma : [.symbol ',', .symbol ')'] <:+: tokens "COUNT(a,)".toList := by decide +kernel
  rw [hsame] at hcomma
  exact hspells.not_comma_paren hlead htrail hcomma

end SqlAssembly

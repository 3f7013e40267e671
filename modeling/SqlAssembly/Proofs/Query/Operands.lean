import SqlAssembly.Proofs.Query.Outline
import SqlAssembly.Proofs.Query.Whole
import SqlAssembly.Proofs.Sql.Meaning

namespace SqlAssembly

/-!
# Fragments as operands

SQL text of the caller's own goes into a condition as it is, without parentheses around it.  If it
has no OR of its own outside of all parentheses, it is one operand of what it is joined to.  If it
has one, it is so between ORs and by itself, but an AND beside it takes only a part of it.

* `Condition.HasOuterOr`, `Condition.Joinable`, `Condition.Guarded` — such texts, and where they do
  not stand beside an AND;
* `Spread` — the pieces that texts leave, beside the conditions that they should be read as;
* `Condition.Spreads`, `Condition.spreads_of_whole` — the pieces of every condition;
* `Members` — conditions one by one, with the pieces of each;
* `WhereClause.read_fragments` — the WHERE part.
-/

open Grammar Sql

namespace Condition

/-- The condition is a text of the caller's own, with an OR outside of all parentheses. -/
def HasOuterOr : Condition → Prop
  | .raw sql => Sql.HasOuterOr (tokens sql.toList)
  | _ => False

instance : (c : Condition) → Decidable c.HasOuterOr
  | .raw _ => inferInstanceAs (Decidable (Sql.HasOuterOr _))
  | .compare _ _ _ | .nullCheck _ _ | .inList _ _ _ | .between _ _ _ _ | .pattern _ _ _
  | .columns _ _ _ | .subquery _ _ _ | .group _ _ => isFalse id

/-- An AND between the two takes both of them whole. -/
def Joinable (c d : Condition) : Prop :=
  c.isEmpty = true ∨ d.isEmpty = true ∨ (¬ c.HasOuterOr ∧ ¬ d.HasOuterOr)

instance : DecidableRel Joinable := fun _ _ => inferInstanceAs (Decidable (_ ∨ _ ∨ _))

/-- Wherever the condition puts an AND between two others, it takes both of them whole. -/
inductive Guarded : Condition → Prop
  | predicate {c : Condition} (hc : c.IsPredicate) : c.Guarded
  | group (combinator : Combinator) {conditions : List Condition}
    (hjoinable : combinator = .and → conditions.Pairwise Joinable)
    (hconditions : ∀ c ∈ conditions, c.Guarded) : Guarded (.group combinator conditions)

end Condition

variable {α : Type*} [Lattice α] [BoundedOrder α] (I : Interpretation α)

/-! ### Pieces and what they should be read as -/

/-- The pieces that texts leave between ANDs, beside the conditions that they should be read as.  An
OR is among the pieces in some cases, and in others they mean what they should. -/
structure Spread (trees : List BoolTree) (ps : List Piece) (hasOr guarded : Prop) : Prop where
  proper : ps = [] ∨ Piece.Proper ps
  nothing : ps = [] ↔ trees = []
  or_iff : Piece.or ∈ ps ↔ hasOr
  meaning : guarded → (Piece.tree? ps).map (BoolTree.eval I)
    = (BoolTree.combine .and trees).map (BoolTree.eval I.reread)

namespace Spread

variable {I} {trees others : List BoolTree} {ps qs : List Piece} {A B G H K : Prop}

/-- No texts leave no pieces. -/
theorem nil (hA : ¬ A) : Spread I [] [] A G where
  proper := .inl rfl
  nothing := iff_of_true rfl rfl
  or_iff := iff_of_false nofun hA
  meaning _ := rfl

/-- Pieces behind others, with an AND between them. -/
theorem append (h : Spread I trees ps A G) (h' : Spread I others qs B H) (hG : K → G) (hH : K → H)
    (hjoin : K → ps = [] ∨ qs = [] ∨ (¬ A ∧ ¬ B)) :
    Spread I (trees ++ others) (ps ++ qs) (A ∨ B) K where
  proper := by
    rcases h.proper with rfl | hp
    · exact h'.proper
    · rcases h'.proper with rfl | hq
      · rw [List.append_nil]
        exact .inr hp
      · exact .inr (hp.append hq)
  nothing := by rw [List.append_eq_nil_iff, List.append_eq_nil_iff, h.nothing, h'.nothing]
  or_iff := by rw [List.mem_append, h.or_iff, h'.or_iff]
  meaning hK := by
    have hapart := hjoin hK
    rw [← h.or_iff, ← h'.or_iff] at hapart
    rw [Piece.map_tree?_append I hapart, BoolTree.map_combine_append, h.meaning (hG hK),
      h'.meaning (hH hK)]

/-- What stands between parentheses is one operand, or nothing. -/
theorem group {combinator : Combinator} {t? : Option BoolTree} (hnothing : t? = none ↔ trees = [])
    (hA : ¬ A) (hmeaning : G → t?.map (BoolTree.eval I)
      = (BoolTree.combine combinator trees).map (BoolTree.eval I.reread)) :
    Spread I (BoolTree.combine combinator trees).toList (t?.toList.map .operand) A G where
  proper := by
    cases t? with
    | none => exact .inl rfl
    | some t => exact .inr (.operands (List.cons_ne_nil t []))
  nothing := by
    rw [List.map_eq_nil_iff, Option.toList_eq_nil_iff, Option.toList_eq_nil_iff,
      BoolTree.combine_eq_none, hnothing]
  or_iff := iff_of_false (by simp) hA
  meaning hG := by
    rw [Piece.tree?_operands, BoolTree.combine_toList_self, BoolTree.combine_toList_self,
      hmeaning hG]

end Spread

/-- The pieces that the text of a condition leaves, beside its outline. -/
structure Condition.Leaves (c : Condition) (tree? : Option BoolTree) (sql : String)
    (ps : List Piece) : Prop extends Spread I tree?.toList ps c.HasOuterOr c.Guarded where
  reading : Reading ReadsPieces sql ps
  isEmpty : tree? = none ↔ c.isEmpty = true

/-- Whenever it is rendered, the text of the condition leaves pieces. -/
def Condition.Spreads (c : Condition) : Prop :=
  ∀ ⦃a a' : Allocator⦄ ⦃sql : String⦄, c.render.outcome a = (.ok sql, a') →
    ∃ tree? ps, c.outline.outcome a = (.ok tree?, a') ∧ c.Leaves I tree? sql ps

/-- Pieces stand side by side with AND between them. -/
theorem readings_join_pieces {sqls : List String} {ps : List Piece}
    (h : Readings ReadsPieces sqls ps) : Reading ReadsPieces (joinNonempty " AND " sqls) ps :=
  h.join (g := " AND ") (by decide) (delimited_cons _ (by decide)) tokens_and ReadsPieces.and

/-! ### Conditions one by one -/

/-- Conditions with their outlines, their texts and the pieces of each. -/
inductive Members : List Condition → List BoolTree → List String → List (List Piece) → Prop
  | nil : Members [] [] [] []
  | cons {c : Condition} {cs : List Condition} {tree? : Option BoolTree} {trees : List BoolTree}
    {sql : String} {sqls : List String} {ps : List Piece} {pss : List (List Piece)}
    (hc : c.Leaves I tree? sql ps) (hcs : Members cs trees sqls pss) :
    Members (c :: cs) (tree?.toList ++ trees) (sql :: sqls) (ps :: pss)

/-- Conditions that leave pieces do so one after the other. -/
theorem Condition.members_of_renderAll {cs : List Condition} (hcs : ∀ c ∈ cs, c.Spreads I)
    {a a' : Allocator} {sqls : List String}
    (h : (Condition.renderAll cs).outcome a = (.ok sqls, a')) :
    ∃ trees pss, (Condition.outlineAll cs).outcome a = (.ok trees, a') ∧
      Members I cs trees sqls pss := by
  induction cs generalizing a sqls with
  | nil =>
    obtain ⟨rfl, rfl⟩ := Condition.renderAll_nil_ok h
    exact ⟨[], [], by rw [outlineAll]; rfl, .nil⟩
  | cons c cs ih =>
    rw [List.forall_mem_cons] at hcs
    obtain ⟨sql, m, hc, rest, hrest, rfl⟩ := Condition.renderAll_cons_ok h
    obtain ⟨tree?, ps, houtline, hleaves⟩ := hcs.1 hc
    obtain ⟨trees, pss, houtlines, hmembers⟩ := ih hcs.2 hrest
    refine ⟨tree?.toList ++ trees, ps :: pss, ?_, .cons hleaves hmembers⟩
    rw [outlineAll]
    exact Render.bind_eq_ok.mpr ⟨tree?, m, houtline,
      Render.bind_eq_ok.mpr ⟨trees, a', houtlines, rfl⟩⟩

namespace Members

variable {I} {cs ds : List Condition} {trees others : List BoolTree} {sqls texts : List String}
  {pss qss : List (List Piece)}

theorem append (h : Members I cs trees sqls pss) (h' : Members I ds others texts qss) :
    Members I (cs ++ ds) (trees ++ others) (sqls ++ texts) (pss ++ qss) := by
  induction h with
  | nil => exact h'
  | cons hc _ ih =>
    rw [List.append_assoc]
    exact .cons hc ih

/-- Between ANDs, the pieces of all members stand side by side. -/
theorem readings (h : Members I cs trees sqls pss) : Readings ReadsPieces sqls pss.flatten := by
  induction h with
  | nil => exact .nil
  | cons hc _ ih => exact .cons hc.reading ih

/-- Members mean nothing if all of them are empty. -/
theorem nothing (h : Members I cs trees sqls pss) : trees = [] ↔ ∀ c ∈ cs, c.isEmpty = true := by
  induction h with
  | nil => simp
  | cons hc _ ih =>
    rw [List.append_eq_nil_iff, Option.toList_eq_nil_iff, hc.isEmpty, ih, List.forall_mem_cons]

/-- Between ANDs, members mean all of them if every one is taken whole. -/
theorem spread (h : Members I cs trees sqls pss) :
    Spread I trees pss.flatten (∃ c ∈ cs, c.HasOuterOr)
      (cs.Pairwise Condition.Joinable ∧ ∀ c ∈ cs, c.Guarded) := by
  induction h with
  | nil => exact .nil (by simp)
  | @cons c cs tree? trees sql sqls ps pss hc hcs ih =>
    rw [List.exists_mem_cons_iff, List.forall_mem_cons, List.pairwise_cons, List.flatten_cons]
    refine hc.toSpread.append ih (fun hK => hK.2.1) (fun hK => ⟨hK.1.2, hK.2.2⟩) fun hK => ?_
    obtain ⟨⟨hjoinable, -⟩, -⟩ := hK
    by_cases hempty : c.isEmpty = true
    · exact .inl (hc.nothing.mpr (Option.toList_eq_nil_iff.mpr (hc.isEmpty.mpr hempty)))
    by_cases hothers : ∀ d ∈ cs, d.isEmpty = true
    · exact .inr (.inl (ih.nothing.mpr (hcs.nothing.mpr hothers)))
    -- otherwise there are two members at least, and none of them has an outer OR
    push Not at hothers
    obtain ⟨e, he, hne⟩ := hothers
    have hc : ¬ c.HasOuterOr := (((hjoinable e he).resolve_left hempty).resolve_left hne).1
    refine .inr (.inr ⟨hc, ?_⟩)
    rintro ⟨d, hd, hor⟩
    rcases hjoinable d hd with h | h | h
    · exact hempty h
    · cases d with
      | raw sql => cases h
      | _ => exact hor
    · exact h.2 hor

/-- Between ORs, they always do. -/
theorem meaning_or (h : Members I cs trees sqls pss) (hguarded : ∀ c ∈ cs, c.Guarded) :
    (BoolTree.combine .or (pss.map Piece.alternatives).flatten).map (BoolTree.eval I)
      = (BoolTree.combine .or trees).map (BoolTree.eval I.reread) := by
  induction h with
  | nil => rfl
  | @cons c cs tree? trees sql sqls ps pss hc _ ih =>
    rw [List.forall_mem_cons] at hguarded
    have hmember := hc.meaning hguarded.1
    rw [BoolTree.combine_toList_self] at hmember
    rw [List.map_cons, List.flatten_cons, BoolTree.map_combine_append, BoolTree.map_combine_append,
      ih hguarded.2, BoolTree.combine_toList_self, ← hmember]
    rfl

end Members

/-! ### All conditions -/

/-- Pieces have alternatives unless there are none. -/
theorem Spread.alternatives_eq_nil {I : Interpretation α} {trees : List BoolTree} {ps : List Piece}
    {A G : Prop} (h : Spread I trees ps A G) : Piece.alternatives ps = [] ↔ trees = [] := by
  rw [← h.nothing]
  rcases h.proper with rfl | hproper
  · exact iff_of_true rfl rfl
  · obtain ⟨t, ht, -⟩ := hproper.exists_tree
    refine iff_of_false ?_ ?_
    · intro hnil
      rw [Piece.tree?, hnil] at ht
      cases ht
    · obtain ⟨⟨u, qs, rfl⟩, -⟩ := hproper
      exact List.cons_ne_nil _ _

/-- Pieces are several disjuncts. -/
theorem Reading.alternatives {sql : String} {ps : List Piece} (h : Reading ReadsPieces sql ps)
    (hps : ps ≠ [] → Piece.alternatives ps ≠ []) :
    Reading ReadsAny sql (Piece.alternatives ps) := by
  rcases h with ⟨rfl, rfl⟩ | ⟨hclosed, hreads, htext, hne⟩
  · exact .inl ⟨rfl, rfl⟩
  · exact .inr ⟨hclosed, hreads.any, htext, hps hne⟩

/-- Several disjuncts at a time. -/
theorem Members.readings_or {I : Interpretation α} {cs : List Condition} {trees : List BoolTree}
    {sqls : List String} {pss : List (List Piece)} (h : Members I cs trees sqls pss) :
    Readings ReadsAny sqls (pss.map Piece.alternatives).flatten ∧
      ((pss.map Piece.alternatives).flatten = [] ↔ trees = []) := by
  induction h with
  | nil => exact ⟨.nil, iff_of_true rfl rfl⟩
  | cons hc _ ih =>
    have hnil := hc.toSpread.alternatives_eq_nil
    have hreading := hc.reading.alternatives (mt (hc.nothing.trans hnil.symm).mpr)
    refine ⟨.cons hreading ih.1, ?_⟩
    rw [List.map_cons, List.flatten_cons, List.append_eq_nil_iff, List.append_eq_nil_iff, hnil,
      ih.2]

namespace Condition

/-- A group is one operand, or nothing. -/
theorem spreads_group {combinator : Combinator} {conditions : List Condition}
    (hconditions : ∀ c ∈ conditions, c.Spreads I) : (group combinator conditions).Spreads I := by
  intro a a' sql h
  obtain ⟨sqls, hsqls, rfl⟩ := render_group_ok h
  obtain ⟨trees, pss, htrees, hmembers⟩ := members_of_renderAll I hconditions hsqls
  -- a group is guarded as its members are, and beside ANDs they have to be joinable
  have hguarded (hG : (group combinator conditions).Guarded) :
      (combinator = .and → conditions.Pairwise Joinable) ∧ ∀ c ∈ conditions, c.Guarded := by
    cases hG with
    | predicate hc => exact hc.elim
    | group _ hjoinable hconditions => exact ⟨hjoinable, hconditions⟩
  -- what stands between the parentheses
  obtain ⟨t?, hnothing, hreading, hmeaning⟩ : ∃ t? : Option BoolTree,
      (t? = none ↔ trees = []) ∧ Reading Reads (combinator.join sqls) t?.toList ∧
      ((group combinator conditions).Guarded → t?.map (BoolTree.eval I)
        = (BoolTree.combine combinator trees).map (BoolTree.eval I.reread)) := by
    cases combinator with
    | and =>
      have hspread := hmembers.spread
      have hnil := hspread.alternatives_eq_nil
      have hjoined := readings_join_pieces hmembers.readings
      refine ⟨Piece.tree? pss.flatten, BoolTree.combine_eq_none.trans hnil,
        (hjoined.alternatives (mt (hspread.nothing.trans hnil.symm).mpr)).group, fun hG => ?_⟩
      exact hspread.meaning ⟨(hguarded hG).1 rfl, (hguarded hG).2⟩
    | or =>
      obtain ⟨hreadings, hnil⟩ := hmembers.readings_or
      exact ⟨_, BoolTree.combine_eq_none.trans hnil, reading_join_or hreadings,
        fun hG => hmembers.meaning_or (hguarded hG).2⟩
  refine ⟨_, _, outline_group combinator htrees, ⟨.group hnothing id hmeaning, ?_, ?_⟩⟩
  · rcases hreading with ⟨hnothing, hnil⟩ | ⟨hclosed, hreads, htext, htrees⟩
    · exact .inl ⟨hnothing, by rw [hnil, List.map_nil]⟩
    · exact .inr ⟨hclosed, hreads.pieces, htext, by simpa using htrees⟩
  · rw [BoolTree.combine_eq_none, hmembers.nothing, isEmpty, allEmpty_iff]

/-- A condition with a text that is a condition by itself. -/
theorem leaves_of_reads {c : Condition} (hc : c.IsPredicate) {a a' : Allocator} {sql : String}
    (h : c.render.outcome a = (.ok sql, a')) (hclosed : Closed sql.toList) {ps : List Piece}
    (hreads : ReadsPieces (tokens sql.toList) ps) (hproper : Piece.Proper ps)
    (hor : Piece.or ∈ ps ↔ c.HasOuterOr) :
    ∃ tree? ps, c.outline.outcome a = (.ok tree?, a') ∧ c.Leaves I tree? sql ps := by
  obtain ⟨t, ht, -⟩ := hproper.exists_tree
  -- a text that is read as a condition has tokens, so it has pieces
  have hne : ps ≠ [] := by
    obtain ⟨⟨u, qs, rfl⟩, -⟩ := hproper
    exact List.cons_ne_nil _ _
  have htext : sql ≠ "" := by
    rintro rfl
    exact hreads.1.ne_nil (by simp)
  have hnonempty : c.isEmpty = false := by
    cases c with
    | group => exact hc.elim
    | _ => rfl
  refine ⟨_, ps, outline_predicate hc h, ⟨⟨.inr hproper, iff_of_false hne nofun, hor, fun _ => ?_⟩,
    .inr ⟨hclosed, hreads, htext, hne⟩, by simp [hnonempty]⟩⟩
  rw [BoolTree.combine_toList_self, ht, Option.map_some, Option.map_some,
    I.eval_reread (hreads.readCondition_eq.trans ht)]

/-- A predicate leaves itself. -/
theorem leaves_of_predicate {c : Condition} (hc : c.IsPredicate) {a a' : Allocator} {sql : String}
    (h : c.render.outcome a = (.ok sql, a')) (hclosed : Closed sql.toList)
    (hreads : Reads (tokens sql.toList) [.predicate (tokens sql.toList)]) (hor : ¬ c.HasOuterOr) :
    ∃ tree? ps, c.outline.outcome a = (.ok tree?, a') ∧ c.Leaves I tree? sql ps :=
  leaves_of_reads I hc h hclosed hreads.pieces (.operands (List.cons_ne_nil _ _))
    (iff_of_false (by simp) hor)

/-- A sound predicate is one piece, without an OR. -/
theorem spreads_of_predicate {c : Condition} (hc : c.IsPredicate) (hsound : c.Sound)
    (hcalls : ∀ column ∈ c.testedColumns, ¬ CallsReserved column) : c.Spreads I := by
  intro a a' sql h
  have hor : ¬ c.HasOuterOr := by
    cases hsound <;> exact id
  exact leaves_of_predicate I hc h (phrase_of_sound hsound h).closed
    (reads_of_render hc hsound hcalls h) hor

/-- A sound condition leaves pieces, be it a group or a predicate. -/
theorem spreads_of_sound {c : Condition} (hsound : c.Sound)
    (hcalls : ∀ column ∈ c.testedColumns, ¬ CallsReserved column) : c.Spreads I := by
  cases hsound with
  | group combinator hconditions =>
    refine spreads_group I fun c hc => spreads_of_sound (hconditions c hc) fun column hcolumn => ?_
    -- what a member tests, the group tests
    apply hcalls
    rw [testedColumns]
    exact mem_allTestedColumns hc hcolumn
  | compare value hfield hop =>
    exact spreads_of_predicate I trivial (.compare value hfield hop) hcalls
  | nullCheck hfield hop => exact spreads_of_predicate I trivial (.nullCheck hfield hop) hcalls
  | inList values hfield hop =>
    exact spreads_of_predicate I trivial (.inList values hfield hop) hcalls
  | between low high hfield hop =>
    exact spreads_of_predicate I trivial (.between low high hfield hop) hcalls
  | pattern text hfield hop =>
    exact spreads_of_predicate I trivial (.pattern text hfield hop) hcalls
  | columns hfield hop hcolumn =>
    exact spreads_of_predicate I trivial (.columns hfield hop hcolumn) hcalls
  | subquery value hquery hop =>
    exact spreads_of_predicate I trivial (.subquery value hquery hop) hcalls

/-- Whole conditions leave pieces, with an OR among them exactly if a text of the caller's own has
an outer one. -/
theorem spreads_of_whole {c : Condition} (hwhole : c.Whole)
    (hcalls : ∀ column ∈ c.testedColumns, ¬ CallsReserved column) : c.Spreads I := by
  cases hwhole with
  | sound hc => exact spreads_of_sound I hc hcalls
  | group combinator hconditions =>
    refine spreads_group I fun c hc => spreads_of_whole (hconditions c hc) fun column hcolumn => ?_
    apply hcalls
    rw [testedColumns]
    exact mem_allTestedColumns hc hcolumn
  | @raw sql hsql =>
    intro a a' text h
    obtain ⟨tree, htree⟩ := hsql.reads
    obtain ⟨ps, hreads, hproper, hor, -⟩ := exists_readsPieces hsql.opening htree
    have htext := h
    rw [render] at htext
    cases htext
    exact leaves_of_reads I (c := .raw sql) trivial h hsql.closed hreads hproper hor
  | @subquery query op value hquery hop =>
    intro a a' text h
    obtain ⟨names, hphrase⟩ := isPhrase_of_whole (.subquery value hquery hop) h
    obtain ⟨inner, hinner, rfl⟩ := render_subquery_ok h
    obtain ⟨innerNames, hinnerPhrase⟩ := Select.isPhrase_of_whole hquery hinner
    refine leaves_of_predicate I (c := .subquery query op value) trivial h hphrase.closed ?_ id
    -- the SELECT behind the parenthesis tells the subquery from a group
    obtain ⟨-, -, -, fields, m, -, clauses, -, rfl⟩ := Select.render_ok hinner
    obtain ⟨rest, hrest⟩ := query.exists_text_eq fields clauses
    rw [hrest] at hinnerPhrase
    rw [subquery_text, hrest]
    exact reads_subquery (by simp [hop]) hinnerPhrase (inside_placeholder _)

end Condition

/-! ### Clauses -/

namespace WhereClause

/-- The conditions of all clauses stand side by side. -/
theorem members_of_renderAll {clauses : List WhereClause}
    (hclauses : ∀ w ∈ clauses, ∀ c ∈ w.conditions, c.Spreads I) {a a' : Allocator}
    {texts : List String} (h : (renderAll clauses).outcome a = (.ok texts, a')) :
    ∃ trees sqls pss, (outlineAll clauses).outcome a = (.ok trees, a') ∧
      Members I (clauses.flatMap conditions) trees sqls pss ∧
      Readings ReadsPieces texts pss.flatten := by
  induction clauses generalizing a texts with
  | nil =>
    obtain ⟨rfl, rfl⟩ := renderAll_nil_ok h
    exact ⟨[], [], [], rfl, .nil, .nil⟩
  | cons w clauses ih =>
    rw [List.forall_mem_cons] at hclauses
    obtain ⟨sql, m, hw, rest, hrest, rfl⟩ := renderAll_cons_ok h
    obtain ⟨sqls, hsqls, rfl⟩ := render_ok hw
    obtain ⟨trees, pss, htrees, hmembers⟩ := Condition.members_of_renderAll I hclauses.1 hsqls
    obtain ⟨others, texts, qss, hothers, hmembers', hreadings⟩ := ih hclauses.2 hrest
    have hjoined := readings_join_pieces hmembers.readings
    refine ⟨trees ++ others, sqls ++ texts, pss ++ qss, ?_, hmembers.append hmembers', ?_⟩
    · rw [outlineAll]
      exact Render.bind_eq_ok.mpr ⟨trees, m, htrees,
        Render.bind_eq_ok.mpr ⟨others, a', hothers, rfl⟩⟩
    · rw [List.flatten_append]
      exact .cons hjoined hreadings

/-- The WHERE part of conditions and complete texts of the caller's own is always read, and it means
all of them together, in any logic, if no text with an outer OR stands beside an AND.  If one stands
among the conditions themselves, the whole part is read as an OR. -/
theorem read_fragments {clauses : List WhereClause}
    (hwhole : ∀ w ∈ clauses, ∀ c ∈ w.conditions, c.Whole)
    (hcalls : ∀ w ∈ clauses, ∀ c ∈ w.conditions, ∀ column ∈ c.testedColumns,
      ¬ CallsReserved column)
    {a a' : Allocator} {texts : List String} (h : (renderAll clauses).outcome a = (.ok texts, a')) :
    ∃ trees tree?, (outlineAll clauses).outcome a = (.ok trees, a') ∧
      readWhere (whereSuffix texts) = some tree? ∧
      ((Condition.group .and (clauses.flatMap conditions)).Guarded →
        tree?.map (BoolTree.eval I) = (BoolTree.combine .and trees).map (BoolTree.eval I.reread)) ∧
      ((∃ w ∈ clauses, ∃ c ∈ w.conditions, c.HasOuterOr) →
        ∃ members, tree? = some (.joined .or members)) := by
  have hspreads : ∀ w ∈ clauses, ∀ c ∈ w.conditions, c.Spreads I := fun w hw c hc =>
    Condition.spreads_of_whole I (hwhole w hw c hc) (hcalls w hw c hc)
  obtain ⟨trees, sqls, pss, htrees, hmembers, hreadings⟩ := members_of_renderAll I hspreads h
  have hspread := hmembers.spread
  have hjoined := readings_join_pieces hreadings
  have hnil := hspread.alternatives_eq_nil
  obtain ⟨hread, -⟩ := readWhere_of_reading
    (hjoined.alternatives (mt (hspread.nothing.trans hnil.symm).mpr))
  refine ⟨trees, Piece.tree? pss.flatten, htrees, hread, fun hguarded => hspread.meaning ?_, ?_⟩
  · cases hguarded with
    | predicate hc => exact hc.elim
    | group _ hjoinable hconditions => exact ⟨hjoinable rfl, hconditions⟩
  · rintro ⟨w, hw, c, hc, hor⟩
    have hmem : Piece.or ∈ pss.flatten :=
      hspread.or_iff.mpr ⟨c, List.mem_flatMap.mpr ⟨w, hw, hc⟩, hor⟩
    rcases hspread.proper with hps | hproper
    · rw [hps] at hmem
      cases hmem
    · obtain ⟨t, ht, hjoined⟩ := hproper.exists_tree
      obtain ⟨members, rfl⟩ := hjoined hmem
      exact ⟨members, ht⟩

/-- Texts with an AND, a NOT and a BETWEEN beside other conditions, texts with an outer OR in a
group and in a group of their own, and a subquery with such a text in it. -/
theorem read_fragments_nested :
    let query := ((({} : Select).field (.column "id")).table "u").filter (.raw "e = 1 OR f = 2")
    let test : Condition := .compare "\"a\"" .eq (.int 1)
    let clauses : List WhereClause := [
      ⟨test, [.raw "b = 2 AND NOT (c = 3 OR d BETWEEN 4 AND 5)"]⟩,
      ⟨.group .or [.raw "x = 1 OR y = 2", .group .and [.raw "p = 1 OR q = 2"], test], []⟩,
      ⟨.subquery query .gt (.int 7), []⟩]
    let sql := " WHERE \"a\" = $0 AND b = 2 AND NOT (c = 3 OR d BETWEEN 4 AND 5) AND " ++
      "(x = 1 OR y = 2 OR (p = 1 OR q = 2) OR \"a\" = $1) AND " ++
      "(SELECT \"id\" FROM \"u\" WHERE e = 1 OR f = 2) > $2"
    let I : Interpretation Truth :=
      { predicate := fun ts =>
          if ts = tokens "c = 3".toList then .unknown
          else if ts = tokens "d BETWEEN 4 AND 5".toList ∨ ts = tokens "x = 1".toList then .no
          else .yes
        not := Truth.not }
    (∃ texts a', (renderAll clauses).outcome .new = (.ok texts, a') ∧ whereSuffix texts = sql) ∧
      ∃ tree, readWhere sql = some (some tree) ∧ tree.eval I = .unknown := by
  intro query test clauses sql I
  have hquery : query.Whole := by
    have hmade : Select.Made (({} : Select).field (.column "id") |>.table "u") :=
      .table "u" (.field .new (.column "id"))
    have hsound := Select.whole_of_sound (Select.sound_of_made hmade)
    show (Select.addClause _ (WhereClause.ofFilters [.raw "e = 1 OR f = 2"])).Whole
    refine hsound.addClause fun w hw c hc => ?_
    obtain ⟨f, hf, hclassify⟩ := Condition.exists_classify_of_mem_ofFilters hw hc
    obtain rfl := List.mem_singleton.mp hf
    exact Filter.whole_of_classify (.raw (by decide +kernel)) hclassify
  have htest : test.Whole := by
    have hfield : quoteColumn "a" = .ok "\"a\"" := by decide +kernel
    exact .sound (.compare _ (generates_of_quoteColumn hfield) rfl)
  have hwhole : ∀ w ∈ clauses, ∀ c ∈ w.conditions, c.Whole := by
    have hor : Condition.Whole (.raw "x = 1 OR y = 2") := .raw (by decide +kernel)
    have hinner : Condition.Whole (.group .and [.raw "p = 1 OR q = 2"]) :=
      .group .and (List.forall_mem_singleton.mpr (.raw (by decide +kernel)))
    have hand : Condition.Whole (.raw "b = 2 AND NOT (c = 3 OR d BETWEEN 4 AND 5)") :=
      .raw (by decide +kernel)
    have hgroup : Condition.Whole
        (.group .or [.raw "x = 1 OR y = 2", .group .and [.raw "p = 1 OR q = 2"], test]) :=
      .group .or (by simp [hor, hinner, htest])
    have hsubquery : Condition.Whole (.subquery query .gt (.int 7)) :=
      .subquery _ hquery (by decide)
    simp [clauses, conditions, htest, hand, hgroup, hsubquery]
  have hcalls : ∀ w ∈ clauses, ∀ c ∈ w.conditions, ∀ column ∈ c.testedColumns,
      ¬ CallsReserved column := by decide +kernel
  have hrender : ∃ texts a', (renderAll clauses).outcome .new = (.ok texts, a') ∧
      whereSuffix texts = sql := by
    have htexts : ((renderAll clauses).outcome .new).1 = .ok [
        "\"a\" = $0 AND b = 2 AND NOT (c = 3 OR d BETWEEN 4 AND 5)",
        "(x = 1 OR y = 2 OR (p = 1 OR q = 2) OR \"a\" = $1)",
        "(SELECT \"id\" FROM \"u\" WHERE e = 1 OR f = 2) > $2"] := by decide +kernel
    exact ⟨_, _, Prod.ext htexts rfl, by decide +kernel⟩
  have hguarded : (Condition.group .and (clauses.flatMap conditions)).Guarded := by
    have hraw (sql : String) : (Condition.raw sql).Guarded := .predicate trivial
    have htest : test.Guarded := .predicate trivial
    have hsubquery : (Condition.subquery query .gt (.int 7)).Guarded := .predicate trivial
    have hinner : (Condition.group .and [.raw "p = 1 OR q = 2"]).Guarded :=
      .group .and (fun _ => List.pairwise_singleton _ _) (by simp [hraw])
    have hgroup : (Condition.group .or
        [.raw "x = 1 OR y = 2", .group .and [.raw "p = 1 OR q = 2"], test]).Guarded :=
      .group .or nofun (by simp [hraw, hinner, htest])
    exact .group .and (fun _ => by decide +kernel)
      (by simp [clauses, conditions, hraw, htest, hgroup, hsubquery])
  refine ⟨hrender, ?_⟩
  obtain ⟨texts, a', htexts, hsql⟩ := hrender
  obtain ⟨trees, tree?, htrees, hread, hmeaning, -⟩ := read_fragments I hwhole hcalls htexts
  have houtline : ((outlineAll clauses).outcome .new).1 = .ok [
      .predicate (tokens "\"a\" = $0".toList),
      .predicate (tokens "b = 2 AND NOT (c = 3 OR d BETWEEN 4 AND 5)".toList),
      .joined .or [
        .predicate (tokens "x = 1 OR y = 2".toList),
        .predicate (tokens "p = 1 OR q = 2".toList),
        .predicate (tokens "\"a\" = $1".toList)],
      .predicate (tokens "(SELECT \"id\" FROM \"u\" WHERE e = 1 OR f = 2) > $2".toList)] := by
    decide +kernel
  rw [htrees] at houtline
  have hvalue := hmeaning hguarded
  rw [Except.ok.inj houtline] at hvalue
  have hunknown : tree?.map (BoolTree.eval I) = some .unknown := by
    rw [hvalue]
    decide +kernel
  obtain ⟨tree, rfl, htree⟩ := Option.map_eq_some_iff.mp hunknown
  exact ⟨tree, hsql ▸ hread, htree⟩

/-- A text with an outer OR is not one operand of the AND in front of it: what is read holds where
the condition beside the text does not. -/
theorem read_fragments_widened :
    let test : Condition := .compare "\"a\"" .eq (.int 1)
    let fragment := "b = 2 OR c = 3"
    let sql := " WHERE \"a\" = $0 AND b = 2 OR c = 3"
    let first : BoolTree := .predicate (tokens "\"a\" = $0".toList)
    let tree : BoolTree := .joined .or [
      .joined .and [first, .predicate (tokens "b = 2".toList)], .predicate (tokens "c = 3".toList)]
    let I : Interpretation Truth :=
      { predicate := fun ts => if ts = tokens "c = 3".toList then .yes else .no, not := Truth.not }
    Complete fragment ∧
      ofFilters [.test (.value (.text "a")) "=" (some (.value (.int 1))), .raw fragment]
        = .ok ⟨test, [.raw fragment]⟩ ∧
      (∃ texts a', (renderAll [⟨test, [.raw fragment]⟩]).outcome .new = (.ok texts, a') ∧
        whereSuffix texts = sql) ∧
      readWhere sql = some (some tree) ∧ tree.eval I = .yes ∧ first.eval I = .no := by
  intro test fragment sql first tree I
  refine ⟨by decide +kernel, ?_, ?_, by decide +kernel, by decide +kernel, by decide +kernel⟩
  · have hfield : fieldOf (.value (.text "a")) = .ok "\"a\"" := by decide +kernel
    have hop : operatorOf "=" = .ok .eq := by decide +kernel
    have hclassify : Condition.classify (.test (.value (.text "a")) "=" (some (.value (.int 1))))
        = .ok test := by
      show Condition.test _ _ _ = _
      rw [Condition.test, hfield, hop]
      rfl
    rw [ofFilters, Condition.classifyAll, hclassify]
    rfl
  · have htexts : ((renderAll [⟨test, [.raw fragment]⟩]).outcome .new).1
        = .ok ["\"a\" = $0 AND b = 2 OR c = 3"] := by decide +kernel
    exact ⟨_, _, Prod.ext htexts rfl, by decide +kernel⟩

end WhereClause

end SqlAssembly

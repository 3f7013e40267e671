import SqlAssembly.Proofs.Query.Joined
import SqlAssembly.Proofs.Query.Outline

namespace SqlAssembly

/-!
# Conditions that are rendered to nothing

A condition is rendered to nothing if it is a group of nothing but such conditions, or a fragment
of no text.  `Condition.isEmpty` knows of the groups only.

* `Condition.fragments` — the fragments of a condition, outside of its subqueries;
* `Condition.Silent`, `Condition.render_eq_empty_iff` — a condition with no text;
* `Condition.DroppedByGroups`, `Condition.DroppedByClauses` — the condition does not count, in a
  group or in a WHERE part;
* `Condition.isEmpty_iff_render` — what is asked of the tree against what is rendered.
-/

/-! ### Fragments -/

mutual

/-- The fragments among the conditions that a condition is a group of. -/
def Condition.fragments : Condition → List String
  | .group _ conditions => Condition.allFragments conditions
  | .raw sql => [sql]
  | _ => []

/-- The fragments of several conditions. -/
def Condition.allFragments : List Condition → List String
  | [] => []
  | c :: rest => c.fragments ++ Condition.allFragments rest

end

/-! ### Conditions with no text -/

/-- There is nothing to write: a fragment of no text, or a group of nothing but such conditions. -/
inductive Condition.Silent : Condition → Prop
  | raw : Silent (.raw "")
  | group (combinator : Combinator) {conditions : List Condition}
    (hconditions : ∀ c ∈ conditions, c.Silent) : Silent (.group combinator conditions)

/-- Conditions with no text bind nothing either. -/
theorem Condition.renderAll_of_silent {cs : List Condition} (h : ∀ c ∈ cs, c.render = pure "") :
    renderAll cs = pure (cs.map fun _ => "") := by
  induction cs with
  | nil => rfl
  | cons c cs ih =>
    rw [List.forall_mem_cons] at h
    rw [renderAll, h.1, ih h.2]
    rfl

/-- Such a condition is rendered to nothing, and binds no value. -/
theorem Condition.Silent.render {c : Condition} (h : c.Silent) : c.render = pure "" := by
  induction h with
  | raw => rfl
  | @group combinator conditions _ ih =>
    -- the members give empty texts, and a group of those has no parentheses
    have hjoin : combinator.join (conditions.map fun _ => "") = "" :=
      Combinator.join_eq_empty.mpr (by simp)
    rw [Condition.render, renderAll_of_silent ih, pure_bind]
    exact congrArg pure hjoin

mutual

/-- The empty text is rendered only for a condition with nothing to write: whatever tests something
has blanks around its operator. -/
theorem Condition.silent_of_render :
    ∀ {c : Condition} {a a' : Allocator}, c.render.outcome a = (.ok "", a') → c.Silent
  | .compare field op value, a, a', h => by
    have htext : field ++ " " ++ op.sql ++ " " ++ _ = "" := Except.ok.inj (congrArg Prod.fst h)
    simp [String.append_eq_empty_iff] at htext
  | .nullCheck field op, a, a', h => by
    have htext : field ++ " " ++ op.sql = "" := Except.ok.inj (congrArg Prod.fst h)
    simp [String.append_eq_empty_iff] at htext
  | .inList field op values, a, a', h => by
    obtain ⟨-, htext⟩ := render_inList_ok h
    simp [String.append_eq_empty_iff] at htext
  | .between field op low high, a, a', h => by
    have htext : field ++ " " ++ op.sql ++ " " ++ _ ++ " AND " ++ _ = "" :=
      Except.ok.inj (congrArg Prod.fst h)
    simp [String.append_eq_empty_iff] at htext
  | .pattern field op text, a, a', h => by
    obtain ⟨-, -, htext⟩ | ⟨-, -, htext⟩ := render_pattern_ok h
    all_goals simp [String.append_eq_empty_iff] at htext
  | .columns field op column, a, a', h => by
    have htext : field ++ " " ++ op.sql ++ " " ++ column = "" :=
      Except.ok.inj (congrArg Prod.fst h)
    simp [String.append_eq_empty_iff] at htext
  | .subquery query op value, a, a', h => by
    obtain ⟨inner, -, htext⟩ := render_subquery_ok h
    simp [String.append_eq_empty_iff] at htext
  | .group combinator conditions, a, a', h => by
    obtain ⟨texts, htexts, h⟩ := render_group_ok h
    exact .group combinator (silent_of_renderAll htexts (Combinator.join_eq_empty.mp h.symm))
  | .raw sql, a, a', h => by
    cases h
    exact .raw

/-- Of conditions whose texts are all empty, each has nothing to write. -/
theorem Condition.silent_of_renderAll :
    ∀ {cs : List Condition} {a a' : Allocator} {texts : List String},
    (renderAll cs).outcome a = (.ok texts, a') → (∀ text ∈ texts, text = "") →
    ∀ c ∈ cs, c.Silent
  | [], _, _, _, _, _ => nofun
  | c :: cs, a, a', texts, h, hempty => by
    obtain ⟨sql, m, hsql, sqls, hsqls, rfl⟩ := renderAll_cons_ok h
    rw [List.forall_mem_cons] at hempty ⊢
    obtain ⟨rfl, hempty⟩ := hempty
    exact ⟨silent_of_render hsql, silent_of_renderAll hsqls hempty⟩

end

/-- A condition is rendered to nothing exactly if there is nothing to write. -/
theorem Condition.render_eq_empty_iff {c : Condition} {a : Allocator} :
    (c.render.outcome a).1 = .ok "" ↔ c.Silent := by
  constructor
  · exact fun h => silent_of_render (Prod.ext h rfl)
  · intro h
    rw [h.render]
    rfl

/-- A group has nothing to write if none of its members has. -/
theorem Condition.silent_group {combinator : Combinator} {cs : List Condition} :
    (group combinator cs).Silent ↔ ∀ c ∈ cs, c.Silent := by
  constructor
  · rintro ⟨⟩
    assumption
  · exact .group combinator

mutual

/-- Nothing is asked for by the conditions with nothing to write that have no fragment of no
text. -/
theorem Condition.isEmpty_iff_silent : ∀ (c : Condition),
    c.isEmpty = true ↔ c.Silent ∧ "" ∉ c.fragments
  | .group combinator cs => by
    rw [isEmpty, fragments, silent_group]
    exact allEmpty_iff_silent cs
  | .raw sql => by
    refine iff_of_false nofun ?_
    rintro ⟨⟨⟩, hfragments⟩
    exact hfragments (List.mem_singleton_self "")
  | .compare _ _ _ | .nullCheck _ _ | .inList _ _ _ | .between _ _ _ _ | .pattern _ _ _
  | .columns _ _ _ | .subquery _ _ _ => iff_of_false nofun nofun

/-- The same for all members of a group. -/
theorem Condition.allEmpty_iff_silent : ∀ (cs : List Condition),
    allEmpty cs = true ↔ (∀ c ∈ cs, c.Silent) ∧ "" ∉ allFragments cs
  | [] => by simp [allEmpty, allFragments]
  | c :: cs => by
    rw [allEmpty, Bool.and_eq_true, isEmpty_iff_silent c, allEmpty_iff_silent cs, allFragments,
      List.forall_mem_cons, List.mem_append, not_or, and_and_and_comm]

end

/-! ### Conditions that are dropped -/

/-- A group is rendered as if the condition did not stand in it. -/
def Condition.DroppedByGroups (c : Condition) : Prop :=
  ∀ (combinator : Combinator) (before after : List Condition),
    (group combinator (before ++ c :: after)).render = (group combinator (before ++ after)).render

/-- A WHERE part is rendered as if the condition did not stand in it: neither among the conditions
of a clause nor as a clause of its own. -/
structure Condition.DroppedByClauses (c : Condition) : Prop where
  clause : ∀ {w w' : WhereClause} {before after : List Condition},
    w.conditions = before ++ c :: after → w'.conditions = before ++ after → w.render = w'.render
  alone : ∀ before after : List WhereClause,
    whereSuffix <$> WhereClause.renderAll (before ++ ⟨c, []⟩ :: after)
      = whereSuffix <$> WhereClause.renderAll (before ++ after)

/-- A condition with nothing to write does not count in groups. -/
theorem Condition.Silent.droppedByGroups {c : Condition} (h : c.Silent) : c.DroppedByGroups := by
  intro combinator before after
  rw [render_group, render_group, renderAll_append, renderAll_append, renderAll, h.render]
  simp only [pure_bind, bind_assoc, map_bind, map_pure, Combinator.join_empty_middle]

/-- A silent condition does not count in WHERE parts. -/
theorem Condition.Silent.droppedByClauses {c : Condition} (h : c.Silent) :
    c.DroppedByClauses := by
  constructor
  · intro w w' before after hw hw'
    rw [WhereClause.render_eq, WhereClause.render_eq, hw, hw', renderAll_append, renderAll_append,
      renderAll, h.render]
    simp only [pure_bind, bind_assoc, map_bind, map_pure, joinNonempty_empty_middle]
  · intro before after
    -- by itself it is a clause with no text
    have halone : WhereClause.render ⟨c, []⟩ = pure "" := by
      rw [WhereClause.render_eq, WhereClause.conditions, renderAll, h.render]
      rfl
    rw [WhereClause.renderAll_append, WhereClause.renderAll_append, WhereClause.renderAll, halone]
    simp only [pure_bind, bind_assoc, map_bind, map_pure, whereSuffix_empty_middle]

/-- A group of a condition alone tells whether it is dropped. -/
theorem Condition.DroppedByGroups.silent {c : Condition} (h : c.DroppedByGroups) : c.Silent := by
  have hgroup : (group .and [c]).render.outcome .new = (.ok "", .new) := by
    rw [show [c] = [] ++ c :: [] from rfl, h .and [] []]
    rfl
  exact silent_group.mp (silent_of_render hgroup) c (List.mem_singleton_self c)

/-- A WHERE part of a condition alone tells whether it is dropped. -/
theorem Condition.DroppedByClauses.silent {c : Condition} (h : c.DroppedByClauses) : c.Silent := by
  have halone : (whereSuffix <$> WhereClause.renderAll [⟨c, []⟩]).outcome .new
      = (.ok "", .new) := by
    rw [show ([⟨c, []⟩] : List WhereClause) = [] ++ ⟨c, []⟩ :: [] from rfl, h.alone [] []]
    rfl
  rw [map_eq_pure_bind] at halone
  obtain ⟨sqls, m, hsqls, hsuffix⟩ := Render.bind_eq_ok.mp halone
  obtain ⟨sql, m', hclause, others, -, rfl⟩ := WhereClause.renderAll_cons_ok hsqls
  obtain ⟨texts, htexts, rfl⟩ := WhereClause.render_ok hclause
  have hempty := whereSuffix_eq_empty.mp (Except.ok.inj (congrArg Prod.fst hsuffix))
  exact silent_of_renderAll htexts
    ((joinNonempty_eq_empty " AND ").mp (hempty _ List.mem_cons_self)) c List.mem_cons_self

/-- Nothing is asked for, as the tree tells it, exactly if the condition is rendered to the empty
text on whatever allocator and no fragment in it is empty; and the empty text is rendered exactly
for the conditions that groups leave out, and exactly for those that WHERE parts leave out. -/
theorem Condition.isEmpty_iff_render (c : Condition) (a : Allocator) :
    (c.isEmpty = true ↔ (c.render.outcome a).1 = .ok "" ∧ "" ∉ c.fragments) ∧
      ((c.render.outcome a).1 = .ok "" ↔ c.DroppedByGroups) ∧
      ((c.render.outcome a).1 = .ok "" ↔ c.DroppedByClauses) := by
  rw [render_eq_empty_iff]
  exact ⟨isEmpty_iff_silent c, ⟨Silent.droppedByGroups, DroppedByGroups.silent⟩,
    ⟨Silent.droppedByClauses, DroppedByClauses.silent⟩⟩

/-- A fragment of no text is rendered to nothing, and yet it counts as a condition. -/
theorem Condition.isEmpty_fragment_unseen :
    ¬ ((raw "").isEmpty = true ↔ ((raw "").render.outcome .new).1 = .ok "") := fun h =>
  Bool.false_ne_true (h.mpr rfl)

end SqlAssembly

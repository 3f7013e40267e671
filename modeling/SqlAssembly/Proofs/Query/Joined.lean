import SqlAssembly.Proofs.Query.Embedding

namespace SqlAssembly

/-!
# Joined texts

Texts that are joined without the empty ones among them, as the members of a group and the
conditions of a WHERE part are.

* `joinNonempty_eq_empty` — nothing is left exactly if every text is empty;
* `joinNonempty_empty_middle` — an empty text does not count, wherever it stands;
* `joinNonempty_append` — texts that were joined before in blocks are joined as they would have
  been one by one;
* `Condition.render_group`, `WhereClause.render_eq` — groups and clauses as the texts of their
  conditions, joined;
* `WhereClause.whereSuffix_renderAll` — a WHERE part is made of the conditions of all its clauses,
  however they are divided among the clauses.
-/

variable {separator : String} {texts : List String}

/-- A single text is joined to itself. -/
theorem joinNonempty_singleton (separator text : String) :
    joinNonempty separator [text] = text := by
  by_cases h : text = ""
  · rw [h]
    rfl
  · rw [joinNonempty, List.filter_eq_self.mpr (by simp [h]), String.intercalate_singleton]

/-- Two texts have a separator between them, if neither is empty. -/
theorem joinNonempty_pair {x y : String} (hx : x ≠ "") (hy : y ≠ "") :
    joinNonempty separator [x, y] = x ++ separator ++ y := by
  rw [joinNonempty, List.filter_eq_self.mpr (by simp [hx, hy]), String.intercalate_cons_cons,
    String.intercalate_singleton]

/-- Nothing is left if all texts are empty. -/
theorem joinNonempty_eq_empty (separator : String) :
    joinNonempty separator texts = "" ↔ ∀ text ∈ texts, text = "" := by
  constructor
  · intro h text htext
    by_contra hne
    exact (IsPart.joinNonempty separator htext hne).ne_empty hne h
  · intro h
    -- all texts are left out, and no separator is put between none
    have hkept : texts.filter (fun text => !text.isEmpty) = [] := by
      simpa [List.filter_eq_nil_iff] using h
    rw [joinNonempty, hkept, String.intercalate_nil]

/-- An empty text is left out. -/
theorem joinNonempty_empty_middle (separator : String) (before after : List String) :
    joinNonempty separator (before ++ "" :: after) = joinNonempty separator (before ++ after) := by
  have hkept : ("" :: after).filter (fun text => !text.isEmpty)
      = after.filter fun text => !text.isEmpty := by
    simp
  rw [joinNonempty, joinNonempty, List.filter_append, List.filter_append, hkept]

/-- An empty text in front leaves the other one. -/
theorem joinNonempty_empty_left (separator text : String) :
    joinNonempty separator ["", text] = text := by
  have h := joinNonempty_empty_middle separator [] [text]
  rwa [List.nil_append, List.nil_append, joinNonempty_singleton] at h

theorem joinNonempty_empty_right (separator text : String) :
    joinNonempty separator [text, ""] = text := by
  have h := joinNonempty_empty_middle separator [text] []
  rwa [List.append_nil, joinNonempty_singleton] at h

/-- Two blocks of texts, each joined by itself before the two are joined. -/
theorem joinNonempty_append (separator : String) (xs ys : List String) :
    joinNonempty separator (xs ++ ys)
      = joinNonempty separator [joinNonempty separator xs, joinNonempty separator ys] := by
  -- what is kept of a block decides whether a separator stands beside it
  have hkept : ∀ texts : List String, joinNonempty separator texts = "" ↔
      texts.filter (fun text => !text.isEmpty) = [] := fun texts => by
    rw [joinNonempty_eq_empty]
    simp [List.filter_eq_nil_iff]
  by_cases hx : joinNonempty separator xs = ""
  · rw [hx, joinNonempty_empty_left, joinNonempty, joinNonempty, List.filter_append,
      (hkept xs).mp hx, List.nil_append]
  by_cases hy : joinNonempty separator ys = ""
  · rw [hy, joinNonempty_empty_right, joinNonempty, joinNonempty, List.filter_append,
      (hkept ys).mp hy, List.append_nil]
  -- both blocks leave something, so one separator stands between them
  rw [joinNonempty_pair hx hy, joinNonempty, joinNonempty, joinNonempty, List.filter_append,
    String.intercalate_append_of_ne_nil (mt (hkept xs).mpr hx) (mt (hkept ys).mpr hy)]

/-- The first text is joined to the others when these are joined. -/
theorem joinNonempty_cons (separator text : String) (texts : List String) :
    joinNonempty separator (text :: texts)
      = joinNonempty separator [text, joinNonempty separator texts] := by
  rw [← List.singleton_append, joinNonempty_append, joinNonempty_singleton]

/-- Nothing is written for members that are all empty. -/
theorem Combinator.join_eq_empty {combinator : Combinator} :
    combinator.join texts = "" ↔ ∀ text ∈ texts, text = "" := by
  rw [Combinator.join, ← joinNonempty_eq_empty (" " ++ combinator.sql ++ " ")]
  split
  · next h => exact iff_of_true rfl (String.isEmpty_iff.mp h)
  · next h =>
    exact iff_of_false (by simp [String.append_eq_empty_iff]) (mt String.isEmpty_iff.mpr h)

/-- There is no WHERE part if all texts are empty. -/
theorem whereSuffix_eq_empty : whereSuffix texts = "" ↔ ∀ text ∈ texts, text = "" := by
  rw [whereSuffix, ← joinNonempty_eq_empty " AND "]
  split
  · next h => exact iff_of_true rfl (String.isEmpty_iff.mp h)
  · next h =>
    exact iff_of_false (by simp [String.append_eq_empty_iff]) (mt String.isEmpty_iff.mpr h)

/-- An empty text does not count in a group. -/
theorem Combinator.join_empty_middle (combinator : Combinator) (before after : List String) :
    combinator.join (before ++ "" :: after) = combinator.join (before ++ after) := by
  rw [Combinator.join, Combinator.join, joinNonempty_empty_middle]

/-- An empty text does not count in a WHERE part. -/
theorem whereSuffix_empty_middle (before after : List String) :
    whereSuffix (before ++ "" :: after) = whereSuffix (before ++ after) := by
  rw [whereSuffix, whereSuffix, joinNonempty_empty_middle]

/-! ### Renderings of joined parts -/

/-- Conditions are rendered one after the other. -/
theorem Condition.renderAll_append (cs ds : List Condition) :
    renderAll (cs ++ ds) = do
      let texts ← renderAll cs
      let others ← renderAll ds
      return texts ++ others := by
  simp only [renderAll_eq_mapM, List.mapM_append]

/-- Clauses in a row are rendered in turn. -/
theorem WhereClause.renderAll_append (ws vs : List WhereClause) :
    renderAll (ws ++ vs) = do
      let texts ← renderAll ws
      let others ← renderAll vs
      return texts ++ others := by
  simp only [renderAll_eq_mapM, List.mapM_append]

/-- A group is the texts of its conditions, joined between parentheses. -/
theorem Condition.render_group (combinator : Combinator) (cs : List Condition) :
    (group combinator cs).render = combinator.join <$> renderAll cs := by
  rw [Condition.render, map_eq_pure_bind]
  rfl

/-- A clause is the texts of its conditions, joined by AND. -/
theorem WhereClause.render_eq (w : WhereClause) :
    w.render = joinNonempty " AND " <$> Condition.renderAll w.conditions := by
  obtain ⟨first, rest⟩ := w
  rw [conditions, Condition.renderAll, WhereClause.render]
  simp only [map_bind, map_pure]

/-- The WHERE part of some clauses is that of all their conditions. -/
theorem WhereClause.whereSuffix_renderAll (ws : List WhereClause) :
    whereSuffix <$> renderAll ws = whereSuffix <$> Condition.renderAll (ws.flatMap conditions) := by
  -- the texts are those of the clauses: blocks that are joined, one for each clause
  suffices h : joinNonempty " AND " <$> renderAll ws
      = joinNonempty " AND " <$> Condition.renderAll (ws.flatMap conditions) by
    have hsuffix : whereSuffix = (fun joined : String =>
        if joined.isEmpty then "" else " WHERE " ++ joined) ∘ joinNonempty " AND " := rfl
    rw [hsuffix, comp_map, comp_map, h]
  induction ws with
  | nil => rfl
  | cons w ws ih =>
    rw [List.flatMap_cons, Condition.renderAll_append, renderAll, render_eq, map_bind,
      bind_map_left, map_bind]
    refine bind_congr fun texts => ?_
    calc joinNonempty " AND " <$> (do
          let rest ← renderAll ws
          return joinNonempty " AND " texts :: rest)
        = (fun rest => joinNonempty " AND " [joinNonempty " AND " texts, rest]) <$>
            joinNonempty " AND " <$> renderAll ws := by
          simp only [map_eq_pure_bind, bind_assoc, pure_bind]
          exact bind_congr fun rest => congrArg pure (joinNonempty_cons _ _ _)
      _ = (fun rest => joinNonempty " AND " [joinNonempty " AND " texts, rest]) <$>
            joinNonempty " AND " <$> Condition.renderAll (ws.flatMap conditions) := by rw [ih]
      _ = joinNonempty " AND " <$> (do
            let others ← Condition.renderAll (ws.flatMap conditions)
            return texts ++ others) := by
          simp only [map_eq_pure_bind, bind_assoc, pure_bind, joinNonempty_append]

/-- What is made of a WHERE part depends on the conditions of its clauses, in order. -/
theorem WhereClause.bind_renderAll_congr {α : Type} {ws ws' : List WhereClause}
    (h : ws.flatMap conditions = ws'.flatMap conditions) (k : String → Render α) :
    (do let texts ← renderAll ws; k (whereSuffix texts))
      = (do let texts ← renderAll ws'; k (whereSuffix texts)) := by
  rw [← bind_map_left whereSuffix (renderAll ws) k, ← bind_map_left whereSuffix (renderAll ws') k,
    whereSuffix_renderAll, whereSuffix_renderAll, h]

end SqlAssembly

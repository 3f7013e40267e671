import SqlAssembly.Proofs.Query.Alike
import SqlAssembly.Proofs.Query.Joined
import SqlAssembly.Proofs.Query.Placeholders

namespace SqlAssembly

/-!
# Patterns in the text

The same query with one pattern after the other at one position: where patterns are inlined, the
text is the same around the literal.

* `Condition.Varies`, `Select.Varies` — a query that depends on the pattern at one position;
* `Inlining` — a rendering that fails whatever the pattern, or whose result depends on it in a
  certain way;
* `Around`, `Among` — a text around the literal, and such a text among others;
* `Condition.Varies.inlining`, `Select.Varies.inlining` — by induction on the position.
-/

open Grammar Sql

/-! ### Positions -/

mutual

/-- A condition that depends on the pattern at one position. -/
inductive Condition.Varies : (String → Condition) → Prop
  | pattern (field : String) (op : Operator) :
    Condition.Varies fun p => .pattern field op p
  | group (combinator : Combinator) (before after : List Condition) {c : String → Condition}
    (hc : Condition.Varies c) :
    Condition.Varies fun p => .group combinator (before ++ c p :: after)
  | subquery (op : Operator) (value : Value) {q : String → Select} (hq : Select.Varies q) :
    Condition.Varies fun p => .subquery (q p) op value

/-- A clause that depends on the pattern at one position. -/
inductive WhereClause.Varies : (String → WhereClause) → Prop
  | conditions (before after : List Condition) {c : String → Condition} (hc : Condition.Varies c)
    {w : String → WhereClause} (hw : ∀ p, (w p).conditions = before ++ c p :: after) :
    WhereClause.Varies w

/-- A query that depends on the pattern at one position, in its conditions or in a query among its
fields. -/
inductive Select.Varies : (String → Select) → Prop
  | clause (q : Select) (before after : List WhereClause) {w : String → WhereClause}
    (hw : WhereClause.Varies w) :
    Select.Varies fun p => { q with clauses := before ++ w p :: after }
  | field (q : Select) (before after : List Field) {inner : String → Select}
    (hinner : Select.Varies inner) :
    Select.Varies fun p => { q with fields := before ++ .subquery (inner p) :: after }

end

/-! ### Renderings that depend on a pattern -/

/-- Where patterns are inlined, the rendering fails in the same way whatever the pattern, or it
succeeds with a result that depends on the pattern in a certain way, and the same values. -/
def Inlining {β : Type} (shape : (String → β) → Prop) (r : String → Render β) : Prop :=
  ∀ a : Allocator, a.options.patterns = .inlined →
    (∃ e m, ∀ p, (r p).outcome a = (.error e, m)) ∨
    ∃ t m, shape t ∧ m.options.patterns = .inlined ∧ ∀ p, (r p).outcome a = (.ok (t p), m)

/-- A rendering whose result has a property whenever it succeeds. -/
def Steady {β : Type} (P : β → Prop) (r : Render β) : Prop :=
  ∀ ⦃a m : Allocator⦄ ⦃x : β⦄, r.outcome a = (.ok x, m) → m.options = a.options ∧ P x

/-- What every text of a list is. -/
theorem Steady.mapM {α : Type} {P : String → Prop} {r : α → Render String} {ys : List α}
    (h : ∀ y ∈ ys, Steady P (r y)) : Steady (fun texts => ∀ text ∈ texts, P text) (ys.mapM r) := by
  induction ys with
  | nil =>
    intro a m texts htexts
    cases htexts
    exact ⟨rfl, List.forall_mem_nil _⟩
  | cons y ys ih =>
    intro a m texts htexts
    rw [List.forall_mem_cons] at h
    rw [List.mapM_cons] at htexts
    obtain ⟨text, m₁, htext, htexts⟩ := Render.bind_eq_ok.mp htexts
    obtain ⟨others, m₂, hothers, htexts⟩ := Render.bind_eq_ok.mp htexts
    cases htexts
    -- the second text is rendered with the options that the first one left, which are the same
    obtain ⟨hfirst, hP⟩ := h.1 htext
    obtain ⟨hrest, hPs⟩ := ih h.2 hothers
    exact ⟨hrest.trans hfirst, List.forall_mem_cons.mpr ⟨hP, hPs⟩⟩

namespace Inlining

variable {α β : Type} {shape : (String → α) → Prop} {shape' : (String → β) → Prop}

/-- A result of the shape is one for every pattern. -/
theorem pure {t : String → α} (h : shape t) : Inlining shape fun p => Pure.pure (t p) :=
  fun a ha => .inr ⟨t, a, h, ha, fun _ => rfl⟩

theorem throw (e : Error) : Inlining shape fun _ => MonadExcept.throw e :=
  fun a _ => .inl ⟨e, a, fun _ => rfl⟩

/-- A check that does not depend on the pattern. -/
theorem ite (P : Prop) [Decidable P] {r s : String → Render α} (hr : Inlining shape r)
    (hs : Inlining shape s) : Inlining shape fun p => if P then r p else s p := by
  by_cases h : P
  · simpa only [if_pos h] using hr
  · simpa only [if_neg h] using hs

/-- One step after the other. -/
theorem bind {r : String → Render α} {k : String → α → Render β} (hr : Inlining shape r)
    (hk : ∀ t, shape t → Inlining shape' fun p => k p (t p)) :
    Inlining shape' fun p => r p >>= k p := by
  intro a ha
  simp only [Render.outcome_bind]
  rcases hr a ha with ⟨e, m, hr⟩ | ⟨t, m, ht, hm, hr⟩
  · exact .inl ⟨e, m, fun p => by rw [hr p]⟩
  · simp only [hr]
    exact hk t ht m hm

/-- A step that does not depend on the pattern, before those that do. -/
theorem bind_steady {P : α → Prop} {r : Render α} {k : String → α → Render β} (hr : Steady P r)
    (hk : ∀ x, P x → Inlining shape' fun p => k p x) : Inlining shape' fun p => r >>= k p := by
  intro a ha
  simp only [Render.outcome_bind]
  cases hx : r.outcome a with
  | mk result m =>
    cases result with
    | error e => exact .inl ⟨e, m, fun _ => rfl⟩
    | ok x =>
      obtain ⟨hoptions, hP⟩ := hr hx
      exact hk x hP m (by rw [hoptions, ha])

/-- What is made of the result may have another shape. -/
theorem map {r : String → Render α} (hr : Inlining shape r) {f : α → β}
    (hf : ∀ t, shape t → shape' fun p => f (t p)) : Inlining shape' fun p => f <$> r p := by
  simp only [map_eq_pure_bind]
  exact hr.bind fun t ht => .pure (hf t ht)

end Inlining

/-! ### Shapes of texts -/

/-- A text behind which a closed text is closed. -/
def Leads (s : List Char) : Prop := ∀ t, Closed t → Closed (s ++ t)

theorem leads_nil : Leads [] := fun _ ht => ht

/-- Behind blanks, words and symbols a closed text is closed. -/
theorem leads_gap {g : List Char} (hg : isGap g = true) : Leads g := fun _ ht => ht.gap hg

/-- Behind an opening parenthesis a closed text is closed. -/
theorem leads_open : Leads ['('] := by
  intro t ht q
  rw [List.singleton_append, tokens_symbol t (by decide)]
  simpa using ht q

/-- Behind a closed text with a gap a closed text is closed. -/
theorem leads_of_closed {s g : List Char} (hs : Closed s) (hg : isGap g = true)
    (hd : Delimited g) : Leads (s ++ g) := by
  intro t ht
  rw [List.append_assoc]
  exact hs.append (delimited_gap_append hg hd t) (.gap hg ht)

/-- A list with something at one place: the texts between the separators are a text before it and a
text behind it. -/
theorem exists_intercalate_eq {g : String} (hg : isGap g.toList = true) (hd : Delimited g.toList)
    (xs ys : List String) :
    ∃ x y : String, ((∀ s ∈ xs, Closed s.toList) → Leads x.toList) ∧ Delimited y.toList ∧
      ∀ text, g.intercalate (xs ++ text :: ys) = x ++ text ++ y := by
  obtain ⟨y, hy, hright⟩ : ∃ y : String, Delimited y.toList ∧
      ∀ text, g.intercalate (text :: ys) = text ++ y := by
    cases ys with
    | nil =>
      refine ⟨"", delimited_nil, fun text => ?_⟩
      rw [String.intercalate_singleton, String.append_empty]
    | cons second ys =>
      refine ⟨g ++ g.intercalate (second :: ys), ?_, fun text => ?_⟩
      · rw [String.toList_append]
        exact delimited_gap_append hg hd _
      · rw [String.intercalate_cons_cons, String.append_assoc]
  -- the texts in front end with a separator, if there are any
  by_cases hxs : xs = []
  · refine ⟨"", y, fun _ => leads_nil, hy, fun text => ?_⟩
    rw [hxs, List.nil_append, hright, String.empty_append]
  · refine ⟨g.intercalate xs ++ g, y, fun hclosed => ?_, hy, fun text => ?_⟩
    · rw [String.toList_append, String.toList_intercalate]
      exact leads_of_closed (.intercalate hg hd (List.forall_mem_map.mpr hclosed)) hg hd
    · rw [String.intercalate_append_of_ne_nil hxs (List.cons_ne_nil _ _), hright]
      simp only [String.append_assoc]

/-- A text that is the same around the literal of any pattern: a blank stands before the literal and
no token goes on behind it.  Whether the text before it is closed may depend on something. -/
def Around (clear : Prop) (t : String → String) : Prop :=
  ∃ before after : String, (clear → Closed before.toList) ∧ Delimited after.toList ∧
    ∀ p, t p = before ++ " " ++ patternLiteral p ++ after

/-- Such a text among others, those before it closed. -/
def Among (clear : Prop) (t : String → List String) : Prop :=
  ∃ (xs ys : List String) (u : String → String), (clear → ∀ x ∈ xs, Closed x.toList) ∧
    Around clear u ∧ t = fun p => xs ++ u p :: ys

/-- A text around a literal is never empty. -/
theorem Around.ne_empty {clear : Prop} {t : String → String} (h : Around clear t) (p : String) :
    t p ≠ "" := by
  obtain ⟨before, after, -, -, ht⟩ := h
  rw [ht]
  simp [String.append_eq_empty_iff]

/-- The text between two others. -/
theorem Around.wrap {clear : Prop} {t : String → String} (h : Around clear t) {x y : String}
    (hx : clear → Leads x.toList) (hy : Delimited y.toList) :
    Around clear fun p => x ++ t p ++ y := by
  obtain ⟨before, after, hbefore, hafter, ht⟩ := h
  refine ⟨x ++ before, after ++ y, fun hclear => ?_, ?_, fun p => ?_⟩
  · rw [String.toList_append]
    exact hx hclear _ (hbefore hclear)
  · rw [String.toList_append]
    exact hafter.append hy
  · simp only [ht, String.append_assoc]

/-- The text between parentheses, and whatever stands behind them. -/
theorem Around.parenthesized {clear : Prop} {t : String → String} (h : Around clear t)
    (y : String) : Around clear fun p => "(" ++ t p ++ ")" ++ y := by
  have htext := h.wrap (x := "(") (y := ")" ++ y) (fun _ => leads_open) (by
    rw [String.toList_append]
    exact delimited_cons _ (by decide))
  simpa only [String.append_assoc] using htext

namespace Among

variable {clear : Prop} {t : String → List String}

/-- Joined by a separator, the texts are one text around the literal. -/
theorem intercalate (h : Among clear t) {g : String} (hg : isGap g.toList = true)
    (hd : Delimited g.toList) : Around clear fun p => g.intercalate (t p) := by
  obtain ⟨xs, ys, u, hxs, hu, rfl⟩ := h
  obtain ⟨x, y, hx, hy, htext⟩ := exists_intercalate_eq hg hd xs ys
  simp only [htext]
  exact hu.wrap (fun hclear => hx (hxs hclear)) hy

/-- The texts that are not left out are the same around the literal. -/
theorem joinNonempty (h : Among clear t) (combinator : Combinator) :
    Around clear fun p => SqlAssembly.joinNonempty (" " ++ combinator.sql ++ " ") (t p) := by
  obtain ⟨xs, ys, u, hxs, hu, rfl⟩ := h
  -- the text with the literal is never empty, so it is among those that are kept
  have hkept : ∀ p, (xs ++ u p :: ys).filter (fun text => !text.isEmpty)
      = xs.filter (fun text => !text.isEmpty) ++ u p :: ys.filter fun text => !text.isEmpty := by
    intro p
    rw [List.filter_append, List.filter_cons_of_pos (by simpa using hu.ne_empty p)]
  have hg : isGap (" " ++ combinator.sql ++ " ").toList = true := by cases combinator <;> decide
  have hd : Delimited (" " ++ combinator.sql ++ " ").toList := by
    cases combinator <;> exact delimited_cons _ (by decide)
  have hmembers : Among clear fun p => xs.filter (fun text => !text.isEmpty) ++ u p ::
      ys.filter fun text => !text.isEmpty :=
    ⟨_, _, u, fun hclear x hx => hxs hclear x (List.mem_of_mem_filter hx), hu, rfl⟩
  simp only [SqlAssembly.joinNonempty, hkept]
  exact hmembers.intercalate hg hd

/-- A group is the same around the literal of one of its members. -/
theorem combine (h : Among clear t) (combinator : Combinator) :
    Around clear fun p => combinator.join (t p) := by
  have hjoined := h.joinNonempty combinator
  have htext : ∀ p, combinator.join (t p)
      = "(" ++ SqlAssembly.joinNonempty (" " ++ combinator.sql ++ " ") (t p) ++ ")" := fun p =>
    if_neg (by simpa using hjoined.ne_empty p)
  simp only [htext]
  simpa only [String.append_empty] using hjoined.parenthesized ""

/-- The WHERE part between two texts. -/
theorem whereSuffix (h : Among clear t) {x y : String} (hx : clear → Closed x.toList)
    (hy : Delimited y.toList) : Around clear fun p => x ++ SqlAssembly.whereSuffix (t p) ++ y := by
  have hjoined : Around clear fun p => SqlAssembly.joinNonempty " AND " (t p) :=
    h.joinNonempty .and
  have htext : ∀ p, x ++ SqlAssembly.whereSuffix (t p) ++ y
      = x ++ " WHERE " ++ SqlAssembly.joinNonempty " AND " (t p) ++ y := fun p => by
    rw [SqlAssembly.whereSuffix, if_neg (by simpa using hjoined.ne_empty p)]
    simp only [String.append_assoc]
  simp only [htext]
  refine hjoined.wrap (fun hclear => ?_) hy
  rw [String.toList_append]
  exact leads_of_closed (hx hclear) (by decide) (delimited_cons _ (by decide))

end Among

/-- Renderings one after the other, one of them depending on the pattern. -/
theorem Inlining.mapM {α : Type} {clear : Prop} {r : α → Render String} {x : String → α}
    {before after : List α}
    (hbefore : ∀ y ∈ before, Steady (fun text => clear → Closed text.toList) (r y))
    (hafter : ∀ y ∈ after, Steady (fun text => clear → Closed text.toList) (r y))
    (hx : Inlining (Around clear) fun p => r (x p)) :
    Inlining (Among clear) fun p => (before ++ x p :: after).mapM r := by
  induction before with
  | nil =>
    simp only [List.nil_append, List.mapM_cons]
    exact hx.bind fun u hu => .bind_steady (Steady.mapM hafter) fun ys _ =>
      .pure ⟨[], ys, u, fun _ => List.forall_mem_nil _, hu, rfl⟩
  | cons y before ih =>
    rw [List.forall_mem_cons] at hbefore
    simp only [List.cons_append, List.mapM_cons]
    -- a text in front of the position is the same for every pattern
    refine .bind_steady hbefore.1 fun text htext => (ih hbefore.2).bind ?_
    rintro _ ⟨xs, ys, u, hxs, hu, rfl⟩
    exact .pure ⟨text :: xs, ys, u,
      fun hclear => List.forall_mem_cons.mpr ⟨htext hclear, hxs hclear⟩, hu, rfl⟩

/-! ### Parts that do not depend on the pattern -/

variable {clear : Prop}

/-- An entry without the position binds by the same options, and its text is closed if it is
sound. -/
theorem Field.steady {f : Field} (hf : clear → f.Sound) :
    Steady (fun text => clear → Closed text.toList) f.render := fun a m text h =>
  ⟨by rw [Field.bindAll_of_render f h, Allocator.bindAll_options],
    fun hclear => (Field.phrase_of_sound (hf hclear) h).closed⟩

/-- The same for a condition. -/
theorem Condition.steady {c : Condition} (hc : clear → c.Sound) :
    Steady (fun text => clear → Closed text.toList) c.render := fun a m text h =>
  ⟨by rw [Condition.bindAll_of_render c h, Allocator.bindAll_options],
    fun hclear => (Condition.phrase_of_sound (hc hclear) h).closed⟩

/-- The same for a clause. -/
theorem WhereClause.steady {w : WhereClause} (hw : clear → ∀ c ∈ w.conditions, c.Sound) :
    Steady (fun text => clear → Closed text.toList) w.render := by
  intro a m text h
  refine ⟨by rw [WhereClause.bindAll_of_render w h, Allocator.bindAll_options], fun hclear => ?_⟩
  obtain ⟨texts, htexts, rfl⟩ := WhereClause.render_ok h
  have hphrases := Condition.phrases_of_renderAll
    (fun c hc => Condition.phrase_of_sound (hw hclear c hc)) htexts
  exact (phrase_joinNonempty .and hphrases).closed

/-- The conditions of a list, one of them with an inlined pattern. -/
theorem Condition.inlining_all {c : String → Condition} {before after : List Condition}
    (hc : Inlining (Around clear) fun p => (c p).render)
    (hclear : clear → ∀ p, ∀ d ∈ before ++ c p :: after, d.Sound) :
    Inlining (Among clear) fun p => renderAll (before ++ c p :: after) := by
  simp only [renderAll_eq_mapM]
  refine Inlining.mapM (fun d hd => ?_) (fun d hd => ?_) hc
  · exact steady fun h => hclear h "" d (by simp [hd])
  · exact steady fun h => hclear h "" d (by simp [hd])

/-- The clauses of a statement, one of them with an inlined pattern. -/
theorem WhereClause.inlining_all {w : String → WhereClause} {before after : List WhereClause}
    (hw : Inlining (Around clear) fun p => (w p).render)
    (hclear : clear → ∀ p, ∀ v ∈ before ++ w p :: after, ∀ c ∈ v.conditions, c.Sound) :
    Inlining (Among clear) fun p => renderAll (before ++ w p :: after) := by
  simp only [renderAll_eq_mapM]
  refine Inlining.mapM (fun v hv => ?_) (fun v hv => ?_) hw
  · exact steady fun h => hclear h "" v (by simp [hv])
  · exact steady fun h => hclear h "" v (by simp [hv])

/-- Binding a value leaves the options as they are. -/
theorem steady_bind (v : Value) : Steady (fun _ => True) (Render.bind v) := by
  intro a m text h
  cases h
  exact ⟨rfl, trivial⟩

/-- What stands before the conditions of a query. -/
theorem Select.closed_head {q : Select} (hq : q.Sound) {fields : List String}
    (hfields : ∀ text ∈ fields, Closed text.toList) :
    Closed ("SELECT " ++ ", ".intercalate fields ++ " FROM " ++ ", ".intercalate q.tables
      ++ String.join (q.joins.map fun j => " " ++ j.sql)).toList := by
  obtain ⟨-, htables, hjoins, -, -, -⟩ := hq
  have hlist : Closed (", ".intercalate fields).toList := by
    rw [String.toList_intercalate]
    exact .intercalate (by decide) (delimited_cons _ (by decide)) (List.forall_mem_map.mpr hfields)
  have hfrom := phrase_tables htables
  have hjoined := trailing_joins hjoins
  -- keywords and commas separate the entries, the tables and the joins
  have htext : ("SELECT " ++ ", ".intercalate fields ++ " FROM " ++ ", ".intercalate q.tables
      ++ String.join (q.joins.map fun j => " " ++ j.sql)).toList = "SELECT ".toList ++
        ((", ".intercalate fields).toList ++ (" FROM ".toList ++
          ((", ".intercalate q.tables).toList ++
          (String.join (q.joins.map fun j => " " ++ j.sql)).toList))) := by
    simp only [String.toList_append, List.append_assoc]
  rw [htext]
  exact .gap (by decide) (hlist.append (delimited_gap_append (by decide)
    (delimited_cons _ (by decide)) _) (.gap (by decide)
      (hfrom.closed.append hjoined.delimited hjoined.closed)))

/-- What stands behind the conditions of a query begins with a blank. -/
theorem Select.delimited_tail (order : List (String × Direction)) (limit offset : Option UInt64) :
    Delimited (Select.tail order limit offset).toList := by
  unfold Select.tail
  dsimp only
  rw [String.toList_append, String.toList_append]
  refine Delimited.append (.append ?_ ?_) ?_
  · split
    · exact delimited_nil
    · rw [String.toList_append]
      exact delimited_cons _ (by decide)
  · cases limit with
    | none => exact delimited_nil
    | some n =>
      rw [String.toList_append]
      exact delimited_cons _ (by decide)
  · cases offset with
    | none => exact delimited_nil
    | some n =>
      rw [String.toList_append]
      exact delimited_cons _ (by decide)

/-! ### Every position -/

/-- Queries that agree on what is checked before they are rendered. -/
theorem Inlining.of_body {q : String → Select} {shape : (String → String) → Prop}
    (hfault : ∀ p, (q p).fault = (q "").fault)
    (hfields : ∀ p, (q p).fields.isEmpty = (q "").fields.isEmpty)
    (htables : ∀ p, (q p).tables.isEmpty = (q "").tables.isEmpty)
    (hbody : Inlining shape fun p => do
      let fields ← Field.renderAll (q p).fields
      let clauses ← WhereClause.renderAll (q p).clauses
      return (q p).text fields clauses) : Inlining shape fun p => (q p).render := by
  -- the checks are made before anything is rendered, and they do not look at any pattern
  cases h : (q "").fault with
  | some e =>
    have hrender := fun p => Select.render_of_fault ((hfault p).trans h)
    simp only [hrender]
    exact .throw e
  | none =>
    have hrender := fun p => Select.render_eq ((hfault p).trans h)
    simp only [hfields, htables] at hrender
    simp only [hrender]
    exact .ite _ (.throw _) (.ite _ (.throw _) hbody)

/-- The name of a query does not depend on the pattern. -/
theorem Select.Varies.alias?_eq {q : String → Select} (h : Select.Varies q) (p p' : String) :
    (q p).alias? = (q p').alias? := by
  cases h <;> rfl

mutual

/-- A condition with an inlined pattern is the same around the literal. -/
theorem Condition.Varies.inlining : ∀ {c : String → Condition}, Condition.Varies c →
    (clear → ∀ p, (c p).Sound) → Inlining (Around clear) fun p => (c p).render
  | _, .pattern field op, hclear => by
    intro a ha
    refine .inr ⟨fun p => field ++ " " ++ op.sql ++ " " ++ patternLiteral p, a,
      ⟨field ++ " " ++ op.sql, "", fun h => ?_, delimited_nil, fun p => ?_⟩, ha, fun p => ?_⟩
    · cases hclear h "" with
      | pattern _ hfield => exact (phrase_nullCheck op (phrase_of_generates hfield)).closed
    · rw [String.append_empty]
    · rw [Condition.outcome_pattern, ha]
  | _, @Condition.Varies.group combinator before after c hc, hclear => by
    have hmembers : clear → ∀ p, ∀ d ∈ before ++ c p :: after, d.Sound := fun h p => by
      cases hclear h p with
      | group _ hconditions => exact hconditions
    have hmember := hc.inlining fun h p => hmembers h p (c p) (by simp)
    simp only [Condition.render_group]
    exact (Condition.inlining_all hmember hmembers).map fun t ht => ht.combine combinator
  | _, @Condition.Varies.subquery op value q hq, hclear => by
    have hquery : clear → ∀ p, (q p).Sound := fun h p => by
      cases hclear h p with
      | subquery _ hquery => exact hquery
    simp only [Condition.render]
    -- the value takes its placeholder before the query is rendered
    refine .bind_steady (steady_bind value) fun name _ => (hq.inlining hquery).bind fun t ht => ?_
    simp only [subquery_text]
    refine .pure ?_
    simpa only [String.append_assoc] using ht.parenthesized (" " ++ op.sql ++ " " ++ name)

/-- A clause with an inlined pattern is the same around the literal. -/
theorem WhereClause.Varies.inlining : ∀ {w : String → WhereClause}, WhereClause.Varies w →
    (clear → ∀ p, ∀ c ∈ (w p).conditions, c.Sound) →
    Inlining (Around clear) fun p => (w p).render
  | _, @WhereClause.Varies.conditions before after c hc w hw, hclear => by
    have hmembers : clear → ∀ p, ∀ d ∈ before ++ c p :: after, d.Sound := fun h p =>
      hw p ▸ hclear h p
    have hmember := hc.inlining fun h p => hmembers h p (c p) (by simp)
    simp only [WhereClause.render_eq, hw]
    exact (Condition.inlining_all hmember hmembers).map fun t ht => ht.joinNonempty .and

/-- A query with an inlined pattern is the same around the literal. -/
theorem Select.Varies.inlining : ∀ {q : String → Select}, Select.Varies q →
    (clear → ∀ p, (q p).Sound) → Inlining (Around clear) fun p => (q p).render
  | _, @Select.Varies.clause q before after w hw, hclear => by
    have hsound : clear → ∀ p, (∀ f ∈ q.fields, f.Sound) ∧
        ∀ v ∈ before ++ w p :: after, ∀ c ∈ v.conditions, c.Sound := fun h p => by
      cases hclear h p with
      | intro hfields _ _ hclauses => exact ⟨hfields, hclauses⟩
    have hmember := hw.inlining fun h p => (hsound h p).2 (w p) (by simp)
    refine .of_body (fun _ => rfl) (fun _ => rfl) (fun _ => rfl) ?_
    simp only [Field.renderAll_eq_mapM]
    refine .bind_steady (Steady.mapM fun f hf => Field.steady fun h => (hsound h "").1 f hf)
      fun fields hfields => ?_
    refine (WhereClause.inlining_all hmember fun h p => (hsound h p).2).bind fun t ht => .pure ?_
    exact ht.whereSuffix (fun h => Select.closed_head (hclear h "") fun text htext =>
      hfields text htext h) (Select.delimited_tail _ _ _)
  | _, @Select.Varies.field q before after inner hinner, hclear => by
    have hsound : clear → ∀ p, (∀ f ∈ before ++ .subquery (inner p) :: after, f.Sound) ∧
        ∀ v ∈ q.clauses, ∀ c ∈ v.conditions, c.Sound := fun h p => by
      cases hclear h p with
      | intro hfields _ _ hclauses => exact ⟨hfields, hclauses⟩
    have hquery : clear → ∀ p, (inner p).Sound := fun h p => by
      cases (hsound h p).1 (.subquery (inner p)) (by simp) with
      | subquery hquery => exact hquery
    have hmember : Inlining (Around clear) fun p => (Field.subquery (inner p)).render := by
      simp only [Field.render, hinner.alias?_eq _ ""]
      exact (hinner.inlining hquery).bind fun t ht => .pure (ht.parenthesized _)
    refine .of_body (fun _ => rfl) (fun _ => by cases before <;> rfl) (fun _ => rfl) ?_
    simp only [Field.renderAll_eq_mapM, WhereClause.renderAll_eq_mapM]
    refine (Inlining.mapM (fun f hf => ?_) (fun f hf => ?_) hmember).bind fun t ht =>
      .bind_steady (Steady.mapM fun v hv => WhereClause.steady fun h => (hsound h "").2 v hv)
        fun clauses _ => .pure ?_
    · exact Field.steady fun h => (hsound h "").1 f (by simp [hf])
    · exact Field.steady fun h => (hsound h "").1 f (by simp [hf])
    · -- the literal is in the select list: all that stands behind the list is the same
      have hlist := ht.intercalate (g := ", ") (by decide) (delimited_cons _ (by decide))
      have htext := hlist.wrap (x := "SELECT ") (y := " FROM " ++ (", ".intercalate q.tables
        ++ (String.join (q.joins.map fun j => " " ++ j.sql)
        ++ (whereSuffix clauses ++ Select.tail q.order q.limit q.offset))))
        (fun _ => leads_gap (by decide)) (by
          rw [String.toList_append]
          exact delimited_cons _ (by decide))
      simpa only [Select.text, String.append_assoc] using htext

end

end SqlAssembly

import SqlAssembly.Proofs.Query.Embedding
import SqlAssembly.Proofs.Statement.Alike

namespace SqlAssembly

/-!
# Statements on any allocator

A statement is rendered in the same way whatever was bound before, with its placeholders counted
from another number.  So a query that is embedded in a statement has the text and the values there
that it has on its own, and what only matters to it on its own does not matter there.

* `Statement.Embeds` — a query is embedded in a statement, at any depth;
* `Statement.outcome_or` — a statement on two allocators;
* `Statement.Embeds.built` — an embedded query on its own;
* `Statement.build_eq_of_alike` — options and names that do not matter;
* `Statement.render_compositional` — the three together.
-/

/-! ### A query on its own -/

namespace Select

/-- The options of a query do not matter to its rendering. -/
theorem render_withOptions (q : Select) (options : BuildOptions) :
    (q.withOptions options).render = q.render := by
  cases hfault : q.fault with
  | some e => rw [render_of_fault hfault, render_of_fault (q := q.withOptions options) hfault]
  | none =>
    rw [render_eq hfault, render_eq (q := q.withOptions options) hfault]
    rfl

/-- A query that is rendered once is rendered on every allocator of the mode, with the same text up
to the numbers of its placeholders. -/
theorem exists_text {q : Select} {a a' : Allocator} {sql : String}
    (h : q.render.outcome a = (.ok sql, a')) :
    ∃ text, Numbered (Multiset.range (q.values a.options.patterns).length) text ∧
      ∀ b : Allocator, b.options.patterns = a.options.patterns →
        q.render.outcome b = (.ok (text b.next), b.bindAll (q.values a.options.patterns)) := by
  -- a query is alike to itself, so one text serves all allocators
  obtain ⟨plan, hplan, hfollows, -⟩ := (q.alike_refl a.options.patterns).twins
  rw [map_fst_samePairs] at hfollows
  cases plan with
  | error e =>
    obtain ⟨n, -, herror⟩ := hfollows
    rw [herror a rfl] at h
    cases h
  | ok text => exact ⟨text, by simpa [samePairs] using hplan text rfl, hfollows⟩

end Select

namespace Statement

/-- A query that has a text is built on its own from this text. -/
theorem build_select {q : Select} {mode : PatternMode} {text : Nat → String}
    (h : ∀ b : Allocator, b.options.patterns = mode →
      q.render.outcome b = (.ok (text b.next), b.bindAll (q.values mode))) (first : UInt64) :
    ∃ built, (Statement.select (q.withOptions ⟨mode, first⟩)).build = .ok built ∧
      built.sql = text first.toNat ∧ built.params.values = q.values mode := by
  have hfollows : Render.Follows mode (q.values mode)
      (Statement.select (q.withOptions ⟨mode, first⟩)).render (.ok text) := by
    rw [render, Select.render_withOptions]
    exact h
  refine ⟨_, build_of_follows (s := .select (q.withOptions ⟨mode, first⟩)) hfollows, rfl, ?_⟩
  rw [Params.values, entries_new, List.map_snd_zip (by simp)]

/-! ### A statement on two allocators -/

/-- Two allocators of the same mode get the same: an error after the same values, or the same text
with placeholders counted from the next number of each, and the same values. -/
theorem outcome_or {s : Statement} (hraw : ∀ r, s ≠ .raw r) {a b : Allocator}
    (hmode : a.options.patterns = b.options.patterns) {values : List Value}
    (hvalues : s.valuesUnder a.options.patterns = values) :
    (∃ e, ∃ n ≤ values.length, s.render.outcome a = (.error e, a.bindAll (values.take n)) ∧
      s.render.outcome b = (.error e, b.bindAll (values.take n))) ∨
    (∃ text, Numbered (Multiset.range values.length) text ∧
      s.render.outcome a = (.ok (text a.next), a.bindAll values) ∧
      s.render.outcome b = (.ok (text b.next), b.bindAll values)) := by
  -- the values are those of the statement, as both allocators treat patterns
  subst hvalues
  obtain ⟨plan, hplan, hfollows, -⟩ := (alike_refl a.options.patterns hraw).twins
  rw [map_fst_samePairs] at hfollows
  cases plan with
  | error e =>
    obtain ⟨n, hn, herror⟩ := hfollows
    exact .inl ⟨e, n, hn, herror a rfl, herror b hmode.symm⟩
  | ok text =>
    refine .inr ⟨text, ?_, hfollows a rfl, hfollows b hmode.symm⟩
    simpa [samePairs] using hplan text rfl

/-! ### Embedded queries -/

/-- The query is the statement, or embedded in it at any depth. -/
inductive Embeds (q : Select) : Statement → Prop
  | select {s : Select} : q.Within s → Embeds q (.select s)
  | update {s : Update} {w : WhereClause} {c : Condition} : w ∈ s.clauses → c ∈ w.conditions →
    Condition.Within q c → Embeds q (.update s)
  | delete {s : Delete} {w : WhereClause} {c : Condition} : w ∈ s.clauses → c ∈ w.conditions →
    Condition.Within q c → Embeds q (.delete s)

/-- An embedded query stands in the text of the statement, and its values among those of it. -/
theorem Embeds.occurs {q : Select} {s : Statement} (h : s.Embeds q) {a a' : Allocator}
    {sql : String} (hs : s.render.outcome a = (.ok sql, a')) :
    q.Occurs a (s.valuesUnder a.options.patterns) sql := by
  cases h with
  | select h => exact h.occursIn a a' sql hs
  | update hw hc h =>
    obtain ⟨-, table, -, clauses, hclauses, rfl⟩ := Update.render_ok hs
    have hoccurs := WhereClause.occurs_of_mem hw hc h.occursIn hclauses
    rw [Allocator.bindAll_options] at hoccurs
    exact hoccurs.behind.part ((IsPart.refl _).prepend _)
  | delete hw hc h =>
    obtain ⟨table, -, clauses, hclauses, rfl⟩ := Delete.render_ok hs
    exact (WhereClause.occurs_of_mem hw hc h.occursIn hclauses).part ((IsPart.refl _).prepend _)

/-- An embedded query has the text in the statement that it has when it is built on its own with
the mode of the statement, counted from another number.  Its values are one block. -/
theorem Embeds.built {q : Select} {s : Statement} (h : s.Embeds q) {outer : BuiltQuery}
    (hs : s.build = .ok outer) :
    ∃ text us ws, Numbered (Multiset.range (q.values s.options.patterns).length) text ∧
      IsPart (text (s.options.firstPlaceholder.toNat + us.length)) outer.sql ∧
      outer.params.values = us ++ q.values s.options.patterns ++ ws ∧
      ∀ first, ∃ alone, (Statement.select (q.withOptions ⟨s.options.patterns, first⟩)).build
          = .ok alone ∧
        alone.sql = text first.toNat ∧ alone.params.values = q.values s.options.patterns := by
  obtain ⟨a, hrender, -⟩ := build_ok hs
  obtain ⟨inner, us, ws, hpart, hvalues, hinner⟩ := h.occurs hrender
  obtain ⟨text, hnumbered, htext⟩ := Select.exists_text hinner
  rw [Allocator.bindAll_options] at hnumbered htext
  -- the text does not depend on the allocator, so it is the one found in the statement
  have hsame := htext ((Allocator.new s.options).bindAll us) (by rw [Allocator.bindAll_options])
  rw [hinner] at hsame
  obtain rfl := Except.ok.inj (Prod.mk.inj hsame).1
  rw [Allocator.bindAll_next] at hpart
  have hraw : ∀ r, s ≠ .raw r := by
    rintro r rfl
    cases h
  refine ⟨text, us, ws, hnumbered, hpart, ?_, build_select htext⟩
  rw [values_of_build hraw hs, values_eq_valuesUnder]
  exact hvalues

/-! ### What does not matter -/

/-- Statements that are alike and bind the same values are built into the same. -/
theorem build_eq_of_alike {s s' : Statement} {pairs : List (Value × Value)}
    (h : s.Alike s.options.patterns s' pairs) (hpairs : ∀ p ∈ pairs, p.1 = p.2) :
    s.build = s'.build := by
  obtain ⟨plan, -, hfirst, hsecond⟩ := h.twins
  rw [← map_fst_eq_map_snd hpairs, h.options_eq] at hsecond
  rw [build_of_follows hfirst, build_of_follows hsecond, h.options_eq]

/-- Rendering is compositional.  A statement is rendered in the same way on all allocators of a
mode; an embedded query has the text and the values that it has on its own; and neither the options
of embedded queries nor the names of those in conditions matter. -/
theorem render_compositional :
    (∀ (s : Statement) (a b : Allocator), (∀ r, s ≠ .raw r) →
      a.options.patterns = b.options.patterns →
      ∀ values, s.valuesUnder a.options.patterns = values →
      (∃ e, ∃ n ≤ values.length, s.render.outcome a = (.error e, a.bindAll (values.take n)) ∧
        s.render.outcome b = (.error e, b.bindAll (values.take n))) ∨
      (∃ text, Numbered (Multiset.range values.length) text ∧
        s.render.outcome a = (.ok (text a.next), a.bindAll values) ∧
        s.render.outcome b = (.ok (text b.next), b.bindAll values))) ∧
    (∀ (s : Statement) (q : Select) (outer : BuiltQuery), s.Embeds q → s.build = .ok outer →
      ∃ text us ws, Numbered (Multiset.range (q.values s.options.patterns).length) text ∧
        IsPart (text (s.options.firstPlaceholder.toNat + us.length)) outer.sql ∧
        outer.params.values = us ++ q.values s.options.patterns ++ ws ∧
        ∀ first, ∃ alone, (Statement.select (q.withOptions ⟨s.options.patterns, first⟩)).build
            = .ok alone ∧
          alone.sql = text first.toNat ∧ alone.params.values = q.values s.options.patterns) ∧
    (∀ (s s' : Statement) (pairs : List (Value × Value)), s.Alike s.options.patterns s' pairs →
      (∀ p ∈ pairs, p.1 = p.2) → s.build = s'.build) :=
  ⟨fun _ _ _ hraw hmode _ hvalues => outcome_or hraw hmode hvalues, fun _ _ _ h hs => h.built hs,
    fun _ _ _ h hpairs => build_eq_of_alike h hpairs⟩

/-- A query with its own options and name, in the select list of one that is compared with a
value. -/
theorem render_compositional_nested :
    let q : Select := {
      fields := [.column "n"]
      tables := ["v"]
      clauses := [⟨.inList "b" .isIn [.int 4, .int 5], [.pattern "c" .like "x"]⟩]
      alias? := some "k"
      options := { firstPlaceholder := 9 } }
    let s : Option String → BuildOptions → Statement := fun alias? options => .delete {
      target := { table := some "t" }
      clauses := [⟨.group .or [.compare "a" .eq (.int 1),
        .subquery { fields := [.subquery q], tables := ["u"], alias?, options } .gt (.int 2)], []⟩]
      options := { patterns := .bound, firstPlaceholder := 3 } }
    (∃ text, Numbered (Multiset.range 5) text ∧
      (s none {}).render.outcome { next := 0, options := { patterns := .bound } }
        = (.ok (text 0), Allocator.bindAll { next := 0, options := { patterns := .bound } }
            [.int 1, .int 2, .int 4, .int 5, .text "x"]) ∧
      (s none {}).render.outcome { next := 9, options := { patterns := .bound } }
        = (.ok (text 9), Allocator.bindAll { next := 9, options := { patterns := .bound } }
            [.int 1, .int 2, .int 4, .int 5, .text "x"])) ∧
    (∃ outer text us ws, (s none {}).build = .ok outer ∧ Numbered (Multiset.range 3) text ∧
      IsPart (text (3 + us.length)) outer.sql ∧
      outer.params.values = us ++ [.int 4, .int 5, .text "x"] ++ ws ∧
      ∀ first, ∃ alone, (Statement.select (q.withOptions ⟨.bound, first⟩)).build = .ok alone ∧
        alone.sql = text first.toNat ∧ alone.params.values = [.int 4, .int 5, .text "x"]) ∧
    (s none {}).build = (s (some "j") { firstPlaceholder := 7 }).build := by
  intro q s
  have hraw : ∀ r, s none {} ≠ .raw r := fun r h => Statement.noConfusion h
  refine ⟨?twice, ?embedded, ?unchanged⟩
  case twice =>
    rcases render_compositional.1 (s none {}) { next := 0, options := { patterns := .bound } }
      { next := 9, options := { patterns := .bound } } hraw rfl _ rfl with ⟨e, n, -, he, -⟩ | h
    · cases (Prod.mk.inj he).1
    · exact h
  case embedded =>
    obtain ⟨outer, houter⟩ : ∃ outer, (s none {}).build = .ok outer := ⟨_, rfl⟩
    have hembeds : (s none {}).Embeds q :=
      .delete List.mem_cons_self List.mem_cons_self
        (.group .or (List.mem_cons_of_mem _ List.mem_cons_self)
          (.subquery .gt (.int 2) (.field List.mem_cons_self .refl)))
    obtain ⟨text, us, ws, h⟩ := render_compositional.2.1 (s none {}) q outer hembeds houter
    exact ⟨outer, text, us, ws, houter, h⟩
  case unchanged =>
    have hinner := Select.alike_refl .bound q
    have halike : (s none {}).Alike .bound (s (some "j") { firstPlaceholder := 7 }) _ :=
      .delete { table := some "t" } { patterns := .bound, firstPlaceholder := 3 }
        (.cons (.mk (.group .or (.cons (.compare "a" .eq (.int 1) (.int 1))
          (.cons (.subquery .gt (.int 2) (.int 2)
            (.mk (.cons (.subquery hinner rfl) .nil) .nil)) .nil))) .nil) .nil)
    refine render_compositional.2.2 _ _ _ halike ?_
    decide +kernel

end Statement

end SqlAssembly

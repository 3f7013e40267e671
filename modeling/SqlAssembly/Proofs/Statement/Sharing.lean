import SqlAssembly.Proofs.Statement.Alike

namespace SqlAssembly

/-!
# Allocators that are shared

One allocator may be used for values, conditions and statements one after the other, and any of
them may fail midway.  Whatever happens, the counter goes on where it stopped, and what was bound
stays bound.

* `Allocator.Use`, `Allocator.after` — the uses, and the allocator behind a run of them;
* `Allocator.issued` — the names that the counter gave during a run, with their values;
* `Allocator.Extends` — what no use takes back;
* `Allocator.Use.outcome_or` — what one use does;
* `Allocator.after_invariant` — what every run of uses keeps.
-/

/-! ### Values by name -/

/-- Where no name is repeated, every entry is found by its name. -/
theorem Params.get?_of_mem {p : Params} (hnames : (p.entries.map (·.1)).Nodup)
    {e : String × Value} (he : e ∈ p.entries) : p.get? e.1 = some e.2 := by
  unfold get?
  generalize p.entries = entries at hnames he
  induction entries with
  | nil => cases he
  | cons first rest ih =>
    rw [List.map_cons, List.nodup_cons] at hnames
    rcases List.mem_cons.mp he with rfl | hrest
    · simp
    · -- the first entry has another name, because this one occurs behind it
      have hne : first.1 ≠ e.1 := by
        intro hname
        apply hnames.1
        rw [hname]
        exact List.mem_map_of_mem hrest
      rw [List.find?_cons_of_neg (by simpa using hne)]
      exact ih hnames.2 hrest

namespace Allocator

/-! ### Uses -/

/-- What an allocator is used for. -/
inductive Use where
  | value (v : Value)
  | condition (c : Condition)
  | statement (s : Statement)

namespace Use

/-- The text of a use: the name of a value, or what is rendered. -/
def render : Use → Render String
  | .value v => Render.bind v
  | .condition c => c.render
  | .statement s => s.render

/-- The values of a use, for a way to treat patterns. -/
def values (mode : PatternMode) : Use → List Value
  | .value v => [v]
  | .condition c => c.values mode
  | .statement s => s.valuesUnder mode

/-- The use is a statement written by hand, which brings its own names. -/
def IsRaw : Use → Prop
  | .statement (.raw _) => True
  | _ => False

instance : DecidablePred IsRaw
  | .statement (.raw _) => .isTrue trivial
  | .value _ | .condition _ | .statement (.select _) | .statement (.insert _)
  | .statement (.update _) | .statement (.delete _) | .statement (.createTable _)
  | .statement (.dropTable _) => .isFalse id

/-- The entries that a use puts behind those of an allocator. -/
def added (u : Use) (a : Allocator) : List (String × Value) :=
  (u.render.outcome a).2.params.entries.drop a.params.entries.length

end Use

/-- The allocator behind uses, one after the other, whether or not they fail. -/
def after (a : Allocator) (uses : List Use) : Allocator :=
  uses.foldl (fun a u => (u.render.outcome a).2) a

/-- The names that the counter gives during uses, each with its value, in order. -/
def issued (a : Allocator) : List Use → List (String × Value)
  | [] => []
  | u :: rest =>
    (if u.IsRaw then [] else u.added a) ++ issued (u.render.outcome a).2 rest

/-- Nothing is taken back: the options are the same, and the entries stay where they are. -/
structure Extends (a b : Allocator) : Prop where
  options : b.options = a.options
  entries : a.params.entries <+: b.params.entries

theorem Extends.refl (a : Allocator) : a.Extends a := ⟨rfl, List.prefix_refl _⟩

theorem Extends.trans {a b c : Allocator} (h : a.Extends b) (h' : b.Extends c) : a.Extends c :=
  ⟨h'.options.trans h.options, h.entries.trans h'.entries⟩

/-- Binding takes nothing back. -/
theorem extends_bindAll (a : Allocator) (vs : List Value) : a.Extends (a.bindAll vs) := by
  refine ⟨a.bindAll_options vs, ?_⟩
  rw [bindAll_entries]
  exact List.prefix_append _ _

theorem after_append (a : Allocator) (us ws : List Use) :
    a.after (us ++ ws) = (a.after us).after ws := List.foldl_append

theorem issued_append (a : Allocator) (us ws : List Use) :
    a.issued (us ++ ws) = a.issued us ++ (a.after us).issued ws := by
  induction us generalizing a with
  | nil => rfl
  | cons u us ih =>
    have hafter : a.after (u :: us) = (u.render.outcome a).2.after us := rfl
    rw [List.cons_append, issued, issued, ih, hafter, List.append_assoc]

/-! ### One use -/

end Allocator

/-- A rendering that follows a plan binds values from the first one on, and all of them unless it
fails. -/
theorem Render.Follows.exists_take {mode : PatternMode} {vs : List Value} {r : Render String}
    {plan : Except Error (Nat → String)} (h : Follows mode vs r plan) {a : Allocator}
    (ha : a.options.patterns = mode) :
    ∃ n ≤ vs.length, (r.outcome a).2 = a.bindAll (vs.take n) ∧
      ∀ text, (r.outcome a).1 = .ok text → n = vs.length := by
  cases plan with
  | error e =>
    obtain ⟨n, hn, herror⟩ := h
    refine ⟨n, hn, by rw [herror a ha], ?_⟩
    intro text htext
    rw [herror a ha] at htext
    cases htext
  | ok x =>
    have hok := h a ha
    refine ⟨vs.length, Nat.le_refl _, ?_, fun _ _ => rfl⟩
    rw [hok, List.take_length]

/-- Binding values to names puts them behind the entries, and does nothing else. -/
theorem Render.outcome_bindNamed (p : Params) (a : Allocator) :
    (Render.bindNamed p).outcome a
      = (.ok (), { a with params := ⟨a.params.entries ++ p.entries⟩ }) := by
  have hfold : ∀ (entries : List (String × Value)) (a : Allocator),
      entries.foldl (fun a e => a.bindNamed e.1 e.2) a
        = { a with params := ⟨a.params.entries ++ entries⟩ } := by
    intro entries
    induction entries with
    | nil =>
      intro a
      rw [List.append_nil]
      rfl
    | cons e rest ih =>
      intro a
      rw [List.foldl_cons, ih]
      simp [Allocator.bindNamed, Params.push]
  show (Except.ok (), p.entries.foldl (fun a e => a.bindNamed e.1 e.2) a) = _
  rw [hfold]

namespace Allocator

/-- A statement written by hand adds its own entries and leaves the counter alone.  Any other use
binds its values from the first one on, and all of them unless it fails. -/
theorem Use.outcome_or (u : Use) (a : Allocator) :
    (∃ r, u = .statement (.raw r) ∧ u.render.outcome a
      = (.ok r.sql, { a with params := ⟨a.params.entries ++ r.params.entries⟩ })) ∨
    (¬ u.IsRaw ∧ ∃ n ≤ (u.values a.options.patterns).length,
      (u.render.outcome a).2 = a.bindAll ((u.values a.options.patterns).take n) ∧
      ∀ text, (u.render.outcome a).1 = .ok text → n = (u.values a.options.patterns).length) := by
  cases u with
  | value v => exact .inr ⟨id, 1, Nat.le_refl _, rfl, fun _ _ => rfl⟩
  | condition c =>
    obtain ⟨plan, -, hfollows, -⟩ := (c.alike_refl a.options.patterns).twins
    rw [map_fst_samePairs] at hfollows
    exact .inr ⟨id, hfollows.exists_take rfl⟩
  | statement s =>
    -- only a statement written by hand brings its own entries
    by_cases hraw : ∃ r, s = .raw r
    · obtain ⟨r, rfl⟩ := hraw
      refine .inl ⟨r, rfl, ?_⟩
      show (Render.bindNamed r.params >>= fun _ => pure r.sql).outcome a = _
      rw [Render.outcome_bind, Render.outcome_bindNamed]
      rfl
    · have hraw' : ∀ r, s ≠ .raw r := fun r hr => hraw ⟨r, hr⟩
      obtain ⟨plan, -, hfollows, -⟩ :=
        (Statement.alike_refl a.options.patterns hraw').twins
      rw [map_fst_samePairs] at hfollows
      refine .inr ⟨?_, hfollows.exists_take rfl⟩
      cases s <;> simp_all [Use.IsRaw]

/-- A use takes nothing back. -/
theorem Use.extends_outcome (u : Use) (a : Allocator) : a.Extends (u.render.outcome a).2 := by
  rcases u.outcome_or a with ⟨r, -, hr⟩ | ⟨-, n, -, hn, -⟩
  · rw [hr]
    exact ⟨rfl, List.prefix_append _ _⟩
  · rw [hn]
    exact a.extends_bindAll _

/-- What a use that is not written by hand adds are the next placeholders. -/
theorem Use.added_eq {u : Use} {a : Allocator} {vs : List Value}
    (h : (u.render.outcome a).2 = a.bindAll vs) : u.added a = (a.names vs.length).zip vs := by
  rw [Use.added, h, bindAll_entries, List.drop_left]

/-! ### Runs of uses -/

/-- No run of uses takes anything back. -/
theorem extends_after (a : Allocator) (uses : List Use) : a.Extends (a.after uses) := by
  induction uses generalizing a with
  | nil => exact .refl a
  | cons u uses ih => exact (u.extends_outcome a).trans (ih _)

/-- The counter gives the next names in order, and nothing else moves it. -/
theorem issued_names (a : Allocator) (uses : List Use) :
    (a.issued uses).map (·.1) = a.names (a.issued uses).length ∧
      (a.after uses).next = a.next + (a.issued uses).length := by
  induction uses generalizing a with
  | nil => exact ⟨rfl, rfl⟩
  | cons u uses ih =>
    have hafter : a.after (u :: uses) = (u.render.outcome a).2.after uses := rfl
    obtain ⟨hnames, hnext⟩ := ih (u.render.outcome a).2
    rw [hafter, hnext, issued]
    rcases u.outcome_or a with ⟨r, hu, hr⟩ | ⟨hraw, n, -, hn, -⟩
    · have hraw : u.IsRaw := by rw [hu]; trivial
      rw [if_pos hraw, List.nil_append]
      -- the counter is where it was
      rw [hr] at hnames ⊢
      exact ⟨hnames, rfl⟩
    -- which values were bound does not matter, only how many
    · generalize (u.values a.options.patterns).take n = vs at hn
      have hadded := Use.added_eq hn
      have hlength : (u.added a).length = vs.length := by simp [hadded]
      have hfirst : (u.added a).map (·.1) = a.names vs.length := by
        rw [hadded]
        exact List.map_fst_zip (by simp)
      rw [if_neg hraw, List.map_append, List.length_append, hlength, hfirst, hnames, hn,
        a.names_add, bindAll_next]
      exact ⟨rfl, Nat.add_assoc _ _ _⟩

/-- The entries of a run stand behind those that were there.  What the counter gave is among them,
in order, and it is all of them without statements written by hand. -/
theorem entries_after (a : Allocator) (uses : List Use) :
    ∃ entries, (a.after uses).params.entries = a.params.entries ++ entries ∧
      (a.issued uses).Sublist entries ∧ ((∀ u ∈ uses, ¬ u.IsRaw) → entries = a.issued uses) := by
  induction uses generalizing a with
  | nil => exact ⟨[], (List.append_nil _).symm, .slnil, fun _ => rfl⟩
  | cons u uses ih =>
    have hafter : a.after (u :: uses) = (u.render.outcome a).2.after uses := rfl
    obtain ⟨first, hfirst⟩ := (u.extends_outcome a).entries
    have hadded : u.added a = first := by rw [Use.added, ← hfirst, List.drop_left]
    obtain ⟨rest, hrest, hsub, hall⟩ := ih (u.render.outcome a).2
    refine ⟨first ++ rest, ?_, ?_, ?_⟩
    · rw [hafter, hrest, ← hfirst, List.append_assoc]
    · rw [issued, hadded]
      split
      · exact hsub.trans (List.sublist_append_right _ _)
      · exact (List.Sublist.refl _).append hsub
    · intro hraw
      rw [List.forall_mem_cons] at hraw
      rw [issued, if_neg hraw.1, hadded, hall hraw.2]

/-- A single use is given what it adds, unless it brings its own names. -/
theorem issued_singleton (a : Allocator) {u : Use} (hraw : ¬ u.IsRaw) :
    a.issued [u] = u.added a := by
  rw [issued, if_neg hraw, issued, List.append_nil]

/-- A use that is not written by hand is given names for values of its own, from the first one on,
and for all of them unless it fails. -/
theorem issued_concat (a : Allocator) (us : List Use) {u : Use} (hraw : ¬ u.IsRaw) :
    ∃ n ≤ (u.values a.options.patterns).length,
      (a.issued (us ++ [u])).map (·.2)
        = (a.issued us).map (·.2) ++ (u.values a.options.patterns).take n ∧
      ∀ text, (u.render.outcome (a.after us)).1 = .ok text →
        n = (u.values a.options.patterns).length := by
  rcases u.outcome_or (a.after us) with ⟨r, rfl, -⟩ | ⟨-, n, hn, houtcome, hok⟩
  · exact absurd trivial hraw
  · rw [(a.extends_after us).options] at hn houtcome hok
    refine ⟨n, hn, ?_, hok⟩
    rw [issued_append, issued_singleton _ hraw, List.map_append, Use.added_eq houtcome,
      List.map_snd_zip (by simp)]

/-- At every point of every run of uses, failures included: the names that the counter gave are
numbered without a gap or a repetition, a value gets the next one, and other uses get names for
their own values; nothing that was bound is taken back and the options stay; a statement written by
hand adds its own entries and leaves the counter alone; and without such statements every value is
found by its name from then on. -/
theorem after_invariant (o : BuildOptions) (us : List Use) :
    let a := (new o).after us
    let given := (new o).issued us
    (given.map (·.1) = (List.range given.length).map
        (fun i => "$" ++ toString (o.firstPlaceholder.toNat + i)) ∧
      (given.map (·.1)).Nodup ∧ given.Sublist a.params.entries ∧
      a.next = o.firstPlaceholder.toNat + given.length ∧
      (given.length < UInt64.size → a.next < 2 * UInt64.size)) ∧
    (∀ v, ∃ name, ((Use.value v).render.outcome a).1 = .ok name ∧
      (new o).issued (us ++ [.value v]) = given ++ [(name, v)]) ∧
    (∀ u : Use, ¬ u.IsRaw → ∃ n ≤ (u.values o.patterns).length,
      ((new o).issued (us ++ [u])).map (·.2)
        = given.map (·.2) ++ (u.values o.patterns).take n ∧
      ∀ text, (u.render.outcome a).1 = .ok text → n = (u.values o.patterns).length) ∧
    (a.options = o ∧ ∀ ws, a.Extends ((new o).after (us ++ ws))) ∧
    (∀ r, (Use.statement (.raw r)).render.outcome a
      = (.ok r.sql, { a with params := ⟨a.params.entries ++ r.params.entries⟩ })) ∧
    (∀ ws, (∀ u ∈ us ++ ws, ¬ u.IsRaw) → ∀ e ∈ given,
      ((new o).after (us ++ ws)).params.get? e.1 = some e.2) := by
  intro a given
  have hoptions : a.options = o := ((new o).extends_after us).options
  obtain ⟨hnames, hnext⟩ : given.map (·.1) = (new o).names given.length ∧
      a.next = o.firstPlaceholder.toNat + given.length := issued_names (new o) us
  refine ⟨⟨?numbered, ?nodup, ?kept, hnext, ?fits⟩, ?value,
    fun u hraw => issued_concat (new o) us hraw, ⟨hoptions, fun ws => ?extended⟩, ?raw, ?found⟩
  case numbered =>
    rw [hnames, names, List.range'_eq_map_range, List.map_map]
    rfl
  case nodup =>
    rw [hnames]
    exact names_nodup _ _
  case kept =>
    obtain ⟨entries, hentries, hsub, -⟩ := entries_after (new o) us
    show given.Sublist ((new o).after us).params.entries
    rw [hentries]
    exact hsub.trans (List.sublist_append_right _ _)
  case fits =>
    intro hlength
    have hfirst := o.firstPlaceholder.toNat_lt_size
    omega
  case value =>
    intro v
    refine ⟨placeholder a.next, rfl, ?_⟩
    have hbind : ((Use.value v).render.outcome a).2 = a.bindAll [v] := rfl
    have hadded : (Use.value v).added a = [(placeholder a.next, v)] := Use.added_eq hbind
    have hlast : a.issued [.value v] = [(placeholder a.next, v)] :=
      (issued_singleton a id).trans hadded
    rw [issued_append]
    exact congrArg (given ++ ·) hlast
  case extended =>
    rw [after_append]
    exact extends_after a ws
  case raw =>
    intro r
    rcases (Use.statement (.raw r)).outcome_or a with ⟨r', hr, houtcome⟩ | ⟨hraw, -⟩
    · cases hr
      exact houtcome
    · exact absurd trivial hraw
  case found =>
    intro ws hraw e he
    obtain ⟨entries, hentries, -, hall⟩ := entries_after (new o) (us ++ ws)
    have hissued : ((new o).after (us ++ ws)).params.entries = (new o).issued (us ++ ws) := by
      rw [hentries, hall hraw]
      rfl
    apply Params.get?_of_mem
    · rw [hissued, (issued_names _ _).1]
      exact names_nodup _ _
    · -- what was given before is among what was given in all
      rw [hissued, issued_append]
      exact List.mem_append_left _ he

/-- From the last number of 64 bits on: a value, a query that fails behind two values, a statement
that brings the name given first, and a list.  The value that was given first is found as long as no
such statement is used. -/
theorem after_invariant_failures :
    let o : BuildOptions := { firstPlaceholder := 18446744073709551615 }
    let failing : Use := .statement (.select {
      fields := [.column "*"]
      tables := ["t"]
      clauses := [⟨.compare "a" .eq (.int 7), [.subquery {} .gt (.int 8)]⟩] })
    let raw : RawSql := ⟨"x = $18446744073709551615", ⟨[("$18446744073709551615", .null)]⟩⟩
    let list : Use := .condition (.inList "b" .isIn [.int 2, .int 3])
    let us : List Use := [.value (.int 1), failing, .statement (.raw raw), list]
    (failing.render.outcome (new o)).1 = .error .fieldsMissing ∧
    ((new o).issued us).map (·.1) = ["$18446744073709551615", "$18446744073709551616",
      "$18446744073709551617", "$18446744073709551618", "$18446744073709551619"] ∧
    ((new o).issued (us ++ [failing])).map (·.2)
      = [.int 1, .int 7, .int 8, .int 2, .int 3, .int 7, .int 8] ∧
    ((new o).after us).next < 2 * UInt64.size ∧
    ((new o).after us).Extends ((new o).after (us ++ [failing])) ∧
    ((new o).after [.value (.int 1), failing, list]).params.get? "$18446744073709551615"
      = some (.int 1) := by
  intro o failing raw list us
  have hissued : (new o).issued us = [("$18446744073709551615", .int 1),
      ("$18446744073709551616", .int 7), ("$18446744073709551617", .int 8),
      ("$18446744073709551618", .int 2), ("$18446744073709551619", .int 3)] := by decide +kernel
  obtain ⟨⟨hnames, -, -, -, hfits⟩, -, huse, ⟨-, hextends⟩, -⟩ := after_invariant o us
  obtain ⟨-, -, -, -, -, hfound⟩ := after_invariant o [.value (.int 1)]
  refine ⟨by decide +kernel, ?names, ?values, ?fits, hextends [failing], ?found⟩
  case names =>
    rw [hnames, hissued]
    decide +kernel
  case values =>
    obtain ⟨n, hn, hvalues, -⟩ := huse failing (by decide)
    have htwo : n = 2 := by
      have hlength := congrArg List.length hvalues
      have hseven : (((new o).issued (us ++ [failing])).map (·.2)).length = 7 := by decide +kernel
      have hfailing : (failing.values o.patterns).length = 2 := rfl
      rw [hseven, hissued, List.length_append, List.length_take, hfailing] at hlength
      simp only [List.length_map, List.length_cons, List.length_nil] at hlength
      omega
    rw [hvalues, hissued, htwo]
    rfl
  case fits =>
    apply hfits
    rw [hissued]
    decide
  case found =>
    exact hfound [failing, list] (by decide) ("$18446744073709551615", .int 1) (by decide +kernel)

end Allocator

end SqlAssembly

import SqlAssembly.Proofs.Query.Inlined
import SqlAssembly.Proofs.Sql.Lexing
import SqlAssembly.Proofs.Statement.Alike
import SqlAssembly.Proofs.Statement.Placeholders

namespace SqlAssembly

/-!
# Inlined patterns in statements

A pattern that is inlined in a statement is one string there with the pattern as its content, and
no other token of the statement depends on it.

* `Statement.Varies` — a statement that depends on the pattern at one position, at any depth;
* `Statement.Varies.inlining` — its text is the same around the literal;
* `ReadsOneString` — a literal between two texts, as the lexer sees it;
* `Statement.Varies.build` — how such a statement is built and read.
-/

open Grammar Sql

/-! ### Positions in statements -/

/-- A statement that depends on the pattern at one position. -/
inductive Statement.Varies : (String → Statement) → Prop
  | select {q : String → Select} (hq : Select.Varies q) : Statement.Varies fun p => .select (q p)
  | update (s : Update) (before after : List WhereClause) {w : String → WhereClause}
    (hw : WhereClause.Varies w) :
    Statement.Varies fun p => .update { s with clauses := before ++ w p :: after }
  | delete (s : Delete) (before after : List WhereClause) {w : String → WhereClause}
    (hw : WhereClause.Varies w) :
    Statement.Varies fun p => .delete { s with clauses := before ++ w p :: after }

/-- The options do not depend on the pattern. -/
theorem Select.Varies.options_eq {q : String → Select} (h : Select.Varies q) (p p' : String) :
    (q p).options = (q p').options := by
  cases h <;> rfl

/-- The options of the statement do not depend on the pattern. -/
theorem Statement.Varies.options_eq {s : String → Statement} (h : Statement.Varies s)
    (p p' : String) : (s p).options = (s p').options := by
  cases h with
  | select hq => exact hq.options_eq p p'
  | update => rfl
  | delete => rfl

/-- A query made by calls is sound. -/
theorem Statement.Made.sound_select {q : Select} (h : (Statement.select q).Made) : q.Sound := by
  cases h with
  | select hq => exact Select.sound_of_made hq

/-- An UPDATE made by calls is sound. -/
theorem Statement.Made.sound_update {u : Update} (h : (Statement.update u).Made) : u.Sound := by
  -- the statement is named first, so that the cases can say which call made it
  generalize hs : Statement.update u = s at h
  cases h with
  | update table hcalls =>
    cases hs
    exact Update.sound_ofCalls table hcalls
  | select | insert | delete => cases hs

/-- A DELETE made by calls is sound. -/
theorem Statement.Made.sound_delete {d : Delete} (h : (Statement.delete d).Made) : d.Sound := by
  generalize hs : Statement.delete d = s at h
  cases h with
  | delete table hcalls =>
    cases hs
    exact Delete.sound_ofCalls table hcalls
  | select | insert | update => cases hs

/-! ### Renderings of statements -/

variable {clear : Prop}

/-- The values of an UPDATE are bound to placeholders. -/
theorem steady_bindAll (vs : List Value) :
    Steady (fun names => ∃ a : Allocator, names = a.names vs.length) (Render.bindAll vs) := by
  intro a m names h
  rw [Render.outcome_bindAll] at h
  cases h
  exact ⟨Allocator.bindAll_options a vs, a, rfl⟩

/-- What stands before the conditions of an UPDATE. -/
theorem Update.closed_head {s : Update} (hs : s.Sound) {table : String}
    (htable : s.target.table = some table) (a : Allocator) :
    Closed ("UPDATE " ++ table ++ " SET " ++ ", ".intercalate
      ((s.sets.zip (a.names s.sets.length)).map fun (c, name) => c.1 ++ " = " ++ name)).toList := by
  have hsets := (phrases_sets hs.sets a).intercalate (g := ", ") (by decide)
    (delimited_cons _ (by decide))
  have hbody := (phrase_of_isTable (hs.target table htable)).join (g := " SET ".toList) (by decide)
    (delimited_cons _ (by decide)) hsets
  rw [String.append_assoc, String.append_assoc, String.toList_append]
  simp only [← String.toList_append] at hbody
  exact (hbody.gap (by decide)).closed

/-- The text of a DELETE up to its table is closed. -/
theorem Delete.closed_head {s : Delete} (hs : s.Sound) {table : String}
    (htable : s.target.table = some table) : Closed ("DELETE FROM " ++ table).toList := by
  rw [String.toList_append]
  exact ((phrase_of_isTable (hs.target table htable)).gap (by decide)).closed

/-- A table that is resolved is the one that was named. -/
theorem Target.table_of_resolve {t : Target} {table : String} (h : t.resolve = .ok table) :
    t.table = some table := by
  unfold resolve at h
  split at h <;> cases h
  assumption

/-- A statement with an inlined pattern is the same around the literal. -/
theorem Statement.Varies.inlining {s : String → Statement} (h : Statement.Varies s)
    (hclear : clear → ∀ p, (s p).Made) : Inlining (Around clear) fun p => (s p).render := by
  cases h with
  | select hq => exact hq.inlining fun h p => (hclear h p).sound_select
  | update s before after hw =>
    -- whatever the pattern, the statement is made by calls and so sound
    have hsound := fun h p => (hclear h p).sound_update
    have hclauses := WhereClause.inlining_all
      (hw.inlining fun h p => (hsound h p).clauses _ (by simp)) fun h p => (hsound h p).clauses
    simp only [Statement.render, Update.render_eq]
    cases htarget : s.target.resolve with
    | error e => exact .throw e
    | ok table =>
      have htable := Target.table_of_resolve htarget
      refine .ite _ (.throw _) (.bind_steady (steady_bindAll _) ?_)
      rintro _ ⟨a, rfl⟩
      refine hclauses.bind fun t ht => .pure ?_
      have htext := ht.whereSuffix (y := "") (fun h => Update.closed_head (hsound h "") htable a)
        delimited_nil
      simpa only [String.append_empty, Update.assignments_eq, List.length_map] using htext
  | delete s before after hw =>
    have hsound := fun h p => (hclear h p).sound_delete
    have hclauses := WhereClause.inlining_all
      (hw.inlining fun h p => (hsound h p).clauses _ (by simp)) fun h p => (hsound h p).clauses
    simp only [Statement.render, Delete.render_eq]
    cases htarget : s.target.resolve with
    | error e => exact .throw e
    | ok table =>
      have htable := Target.table_of_resolve htarget
      refine hclauses.bind fun t ht => .pure ?_
      have htext := ht.whereSuffix (y := "") (fun h => Delete.closed_head (hsound h "") htable)
        delimited_nil
      simpa only [String.append_empty] using htext

/-! ### Builds -/

/-- The literal of any pattern between two texts, as the lexer sees it: where it reaches the
literal, it reads one string with the pattern as its content and goes on with the text behind it,
and all other tokens are the same for every pattern. -/
structure ReadsOneString (before after : String) : Prop where
  next : ∀ p, ReadsNext (patternLiteral p ++ after).toList (.string p.toList) after.toList
  others : ∀ p ts,
    Lexes (before ++ patternLiteral p ++ after).toList ts (patternLiteral p ++ after).toList →
    ∀ p', Lexes (before ++ patternLiteral p' ++ after).toList ts
        (patternLiteral p' ++ after).toList ∧
      tokens (before ++ patternLiteral p' ++ after).toList
        = ts ++ .string p'.toList :: tokens after.toList

/-- No apostrophe goes on with a delimited text. -/
theorem head?_ne_of_delimited {s : List Char} (h : Delimited s) : s.head? ≠ some '\'' :=
  fun hs => (h.apart '\'' hs).2.2.2 rfl

/-- The literal of a pattern is read as one string. -/
theorem readsNext_patternLiteral (p : String) {after : String} (h : Delimited after.toList) :
    ReadsNext (patternLiteral p ++ after).toList (.string p.toList) after.toList := by
  rw [String.toList_append, patternLiteral, String.toList_ofList]
  exact readsNext_string p.toList (head?_ne_of_delimited h)

/-- Behind a closed text and a blank the lexer reaches the literal. -/
theorem lexes_patternLiteral {before : String} (hbefore : Closed before.toList) (p after : String) :
    Lexes (before ++ " " ++ patternLiteral p ++ after).toList (tokens before.toList)
      (patternLiteral p ++ after).toList := by
  rw [String.append_assoc, String.append_assoc, String.toList_append, String.toList_append]
  exact lexes_blank hbefore _

/-- Behind a blank, the literal of every pattern is read as one string, and what is read around it
is the same for all. -/
theorem readsOneString (before : String) {after : String} (h : Delimited after.toList) :
    ReadsOneString (before ++ " ") after := by
  refine ⟨fun p => readsNext_patternLiteral p h, fun p ts hlexes p' => ?_⟩
  rw [String.append_assoc, String.append_assoc, String.toList_append,
    String.toList_append] at hlexes
  have hne : (patternLiteral p ++ after).toList ≠ [] := by
    simp [String.toList_append, patternLiteral, Text.quoted]
  -- where the lexer reaches the literal, everything in front of it is closed
  obtain ⟨hbefore, rfl⟩ := Lexes.closed hlexes hne
  have hreached := lexes_patternLiteral hbefore p' after
  exact ⟨hreached, (hreached.trans (readsNext_patternLiteral p' h).lexes).tokens_eq.trans
    (List.append_assoc _ _ _)⟩

/-- A statement in which a pattern is inlined fails with the same error whatever the pattern is, or
else its values and its text around the literal are the same for every pattern, and the literal is
one string.  If there is no SQL text of the caller's own in the statement, the lexer always reaches
the literal. -/
theorem Statement.build_of_varies {s : String → Statement} (h : Statement.Varies s)
    (hinlined : ∀ p, (s p).options.patterns = .inlined) :
    (∃ e, ∀ p, (s p).build = .error e) ∨
    ∃ (before after : String) (params : Params),
      (∀ p, (s p).build = .ok ⟨before ++ patternLiteral p ++ after, params⟩) ∧
      ReadsOneString before after ∧
      ((∀ p, (s p).Made) → ∀ p, ∃ ts, Lexes (before ++ patternLiteral p ++ after).toList ts
        (patternLiteral p ++ after).toList) := by
  -- the options, and so the allocator at the start, do not depend on the pattern
  rcases h.inlining id (.new (s "").options) (hinlined "") with
    ⟨e, m, hr⟩ | ⟨t, m, ⟨before, after, hbefore, hafter, ht⟩, -, hr⟩
  · exact .inl ⟨e, fun p => by rw [build, h.options_eq p "", hr]⟩
  · refine .inr ⟨before ++ " ", after, m.params, fun p => ?_, readsOneString before hafter,
      fun hmade p => ?_⟩
    · rw [build, h.options_eq p "", hr, ht]
    · exact ⟨_, lexes_patternLiteral (hbefore hmade) p after⟩

/-- A pattern in a group of a subquery, beside a fragment, under options that inline. -/
theorem Statement.build_of_varies_nested :
    let inner (p : String) : Select := {
      fields := [.column "\"id\""]
      tables := ["\"u\""]
      clauses := [⟨.raw "b = 'x'", [.group .or [.pattern "\"c\"" .like p, .raw "d"]]⟩] }
    let s (p : String) : Statement := .delete {
      target := { table := some "\"t\"" }
      clauses := [⟨.subquery (inner p) .gt (.int 1), []⟩] }
    Statement.Varies s ∧ (∀ p, (s p).options.patterns = .inlined) ∧
    (s "''").build = .ok ⟨"DELETE FROM \"t\" WHERE (SELECT \"id\" FROM \"u\" " ++
      "WHERE b = 'x' AND (\"c\" LIKE '''''' OR d)) > $0", ⟨[("$0", .int 1)]⟩⟩ ∧
    ∃ (before after : String) (params : Params),
      (∀ p, (s p).build = .ok ⟨before ++ patternLiteral p ++ after, params⟩) ∧
      ReadsOneString before after := by
  intro inner s
  have hgroup := Condition.Varies.group .or [] [.raw "d"] (.pattern "\"c\"" .like)
  have hclause : WhereClause.Varies fun p =>
      ⟨.raw "b = 'x'", [.group .or [.pattern "\"c\"" .like p, .raw "d"]]⟩ :=
    .conditions [.raw "b = 'x'"] [] hgroup fun _ => rfl
  have hinner : Select.Varies inner :=
    .clause { fields := [.column "\"id\""], tables := ["\"u\""] } [] [] hclause
  have hvaries : Statement.Varies s :=
    .delete { target := { table := some "\"t\"" } } [] []
      (.conditions [] [] (.subquery .gt (.int 1) hinner) fun _ => rfl)
  have hbuild : (s "''").build = .ok ⟨"DELETE FROM \"t\" WHERE (SELECT \"id\" FROM \"u\" " ++
      "WHERE b = 'x' AND (\"c\" LIKE '''''' OR d)) > $0", ⟨[("$0", .int 1)]⟩⟩ := by decide +kernel
  refine ⟨hvaries, fun _ => rfl, hbuild, ?_⟩
  rcases Statement.build_of_varies hvaries fun _ => rfl with
    ⟨e, he⟩ | ⟨before, after, params, h, hone, -⟩
  · rw [he] at hbuild
    cases hbuild
  · exact ⟨before, after, params, h, hone⟩

end SqlAssembly

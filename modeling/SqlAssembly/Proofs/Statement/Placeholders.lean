import SqlAssembly.Proofs.Query.Placeholders
import SqlAssembly.Proofs.Statement.Values

namespace SqlAssembly

/-!
# The placeholders of a statement

A statement made by calls, without SQL text of the caller's own, has each of its parameters once in
its text and no other placeholders, whatever names, literals and patterns it contains.

* `Statement.Made` — the statements made by calls;
* `Insert.Sound`, `Update.Sound`, `Delete.Sound` — what is known of them, kept by every call;
* `Statement.phrase_of_build` — the text has the placeholders of the parameters;
* `Statement.placeholders_of_build` — each of them once.
-/

open Grammar Sql

/-! ### Statements made by calls -/

/-- A call without SQL text of the caller's own. -/
def Update.Call.Made : Update.Call → Prop
  | .filters fs => ∀ f ∈ fs, f.Made
  | .set _ _ | .setAll _ | .options _ => True

@[inherit_doc Update.Call.Made]
def Delete.Call.Made : Delete.Call → Prop
  | .filters fs => ∀ f ∈ fs, f.Made
  | .options _ => True

/-- The statements that are made by calls. -/
inductive Statement.Made : Statement → Prop
  | select {q : Select} (hq : q.Made) : Statement.Made (.select q)
  | insert (table : String) (calls : List Insert.Call) :
    Statement.Made (.insert (.ofCalls table calls))
  | update (table : String) {calls : List Update.Call} (hcalls : ∀ c ∈ calls, c.Made) :
    Statement.Made (.update (.ofCalls table calls))
  | delete (table : String) {calls : List Delete.Call} (hcalls : ∀ c ∈ calls, c.Made) :
    Statement.Made (.delete (.ofCalls table calls))

/-! ### What every call keeps -/

/-- What holds at first and is kept by every step holds behind a chain of steps. -/
theorem foldl_invariant {σ γ : Type} {step : σ → γ → σ} {P : σ → Prop} {cs : List γ} {s : σ}
    (hs : P s) (hstep : ∀ s, ∀ c ∈ cs, P s → P (step s c)) : P (cs.foldl step s) := by
  induction cs generalizing s with
  | nil => exact hs
  | cons c cs ih =>
    exact ih (hstep s c List.mem_cons_self hs) fun s d hd =>
      hstep s d (List.mem_cons_of_mem c hd)

/-- The table of a statement is quoted. -/
def Target.Sound (t : Target) : Prop := ∀ table ∈ t.table, IsTable table.toList

/-- A table that was accepted is quoted. -/
theorem Target.sound_ofName (name : String) : (Target.ofName name).Sound := by
  unfold ofName
  split
  · nofun
  split
  · next htable =>
    intro table hmem
    obtain rfl := Option.some.inj hmem
    exact isTable_of_quoteTable htable
  · nofun

/-- The table and the columns of an INSERT are quoted. -/
structure Insert.Sound (s : Insert) : Prop where
  target : s.target.Sound
  values : ∀ v ∈ s.values, Generates .expression v.1.toList

/-- Another value keeps an INSERT sound, as its column is quoted. -/
theorem Insert.Sound.value {s : Insert} (h : s.Sound) (column : String) (v : Value) :
    (s.value column v).Sound := by
  unfold Insert.value
  split
  · next c hc =>
    refine ⟨h.target, List.forall_mem_append.mpr ⟨h.values, List.forall_mem_singleton.mpr ?_⟩⟩
    exact generates_of_quoteColumn hc
  · exact ⟨h.target, h.values⟩

/-- Every chain of calls makes a sound INSERT. -/
theorem Insert.sound_ofCalls (table : String) (calls : List Insert.Call) :
    (Insert.ofCalls table calls).Sound := by
  refine foldl_invariant ⟨Target.sound_ofName table, nofun⟩ fun s call _ hs => ?_
  cases call with
  | value column v => exact hs.value column v
  | values vs => exact foldl_invariant hs fun s v _ hs => hs.value v.1 v.2
  | options o => exact ⟨hs.target, hs.values⟩

/-- The table and the columns of an UPDATE are quoted, and its conditions are sound. -/
structure Update.Sound (s : Update) : Prop where
  target : s.target.Sound
  sets : ∀ v ∈ s.sets, Generates .expression v.1.toList
  clauses : ∀ w ∈ s.clauses, ∀ c ∈ w.conditions, c.Sound

/-- Another new value keeps an UPDATE sound. -/
theorem Update.Sound.set {s : Update} (h : s.Sound) (column : String) (v : Value) :
    (s.set column v).Sound := by
  unfold Update.set
  split
  · next c hc =>
    refine ⟨h.target, List.forall_mem_append.mpr ⟨h.sets, List.forall_mem_singleton.mpr ?_⟩, h.clauses⟩
    exact generates_of_quoteColumn hc
  · exact ⟨h.target, h.sets, h.clauses⟩

/-- The conditions of filters without SQL text of the caller's own are sound. -/
theorem WhereClause.sound_ofFilters {filters : List Filter} (hfilters : ∀ f ∈ filters, f.Made)
    {w : WhereClause} (h : WhereClause.ofFilters filters = .ok w) : ∀ c ∈ w.conditions, c.Sound := by
  intro c hc
  obtain ⟨f, hf, hclassify⟩ := Condition.exists_classify_of_mem_ofFilters h hc
  exact Filter.sound_of_made (hfilters f hf) hclassify

/-- Every chain of calls without SQL text makes a sound UPDATE. -/
theorem Update.sound_ofCalls (table : String) {calls : List Update.Call}
    (hcalls : ∀ c ∈ calls, c.Made) : (Update.ofCalls table calls).Sound := by
  refine foldl_invariant ⟨Target.sound_ofName table, nofun, nofun⟩ fun s call hcall hs => ?_
  cases call with
  | set column v => exact hs.set column v
  | setAll vs => exact foldl_invariant hs fun s v _ hs => hs.set v.1 v.2
  | filters fs =>
    -- a clause is added if all its filters are accepted, and an error otherwise
    show (s.filterAll fs).Sound
    unfold Update.filterAll
    split
    · next w hw =>
      have hclause := WhereClause.sound_ofFilters (hcalls _ hcall) hw
      exact ⟨hs.target, hs.sets,
        List.forall_mem_append.mpr ⟨hs.clauses, List.forall_mem_singleton.mpr hclause⟩⟩
    · exact ⟨hs.target, hs.sets, hs.clauses⟩
  | options o => exact ⟨hs.target, hs.sets, hs.clauses⟩

/-- The table of a DELETE is quoted, and its conditions are sound. -/
structure Delete.Sound (s : Delete) : Prop where
  target : s.target.Sound
  clauses : ∀ w ∈ s.clauses, ∀ c ∈ w.conditions, c.Sound

/-- Every chain of calls without SQL text makes a sound DELETE. -/
theorem Delete.sound_ofCalls (table : String) {calls : List Delete.Call}
    (hcalls : ∀ c ∈ calls, c.Made) : (Delete.ofCalls table calls).Sound := by
  refine foldl_invariant ⟨Target.sound_ofName table, nofun⟩ fun s call hcall hs => ?_
  cases call with
  | filters fs =>
    show (s.filterAll fs).Sound
    unfold Delete.filterAll
    split
    · next w hw =>
      have hclause := WhereClause.sound_ofFilters (hcalls _ hcall) hw
      exact ⟨hs.target, List.forall_mem_append.mpr ⟨hs.clauses, List.forall_mem_singleton.mpr hclause⟩⟩
    · exact ⟨hs.target, hs.clauses⟩
  | options o => exact ⟨hs.target, hs.clauses⟩

/-! ### Texts of statements -/

/-- The text of an INSERT has a placeholder for each of its values. -/
theorem phrase_insert {s : Insert} (hs : s.Sound) {a a' : Allocator} {sql : String}
    (h : s.render.outcome a = (.ok sql, a')) :
    Phrase sql.toList (a.names s.values.length) := by
  obtain ⟨-, -, table, htable, rfl⟩ := Insert.render_ok h
  -- quoted columns have no placeholder of their own
  have hcolumns : Phrases (s.values.map (·.1)) [] := by
    refine phrases_of_forall fun c hc => ?_
    obtain ⟨v, hv, rfl⟩ := List.mem_map.mp hc
    exact phrase_of_generates (hs.values v hv)
  have hlist := phrase_parenthesized (hcolumns.intercalate (g := ", ") (by decide)
    (delimited_cons _ (by decide)))
  have hnames := phrase_parenthesized ((phrases_names a s.values.length).intercalate (g := ", ")
    (by decide) (delimited_cons _ (by decide)))
  have hvalues := hlist.join (g := " VALUES ".toList) (by decide) (delimited_cons _ (by decide)) hnames
  have hbody := (phrase_of_isTable (hs.target table htable)).join (g := " ".toList) (by decide)
    (delimited_cons _ (by decide)) hvalues
  rw [insert_text]
  simp only [← String.toList_append] at hbody
  rw [String.toList_append]
  exact hbody.gap (by decide)

/-- The new values of an UPDATE: every column with its own placeholder. -/
theorem phrases_sets {sets : List (String × Value)}
    (hsets : ∀ v ∈ sets, Generates .expression v.1.toList) (a : Allocator) :
    Phrases ((sets.zip (a.names sets.length)).map fun (c, name) => c.1 ++ " = " ++ name)
      (a.names sets.length) := by
  induction sets generalizing a with
  | nil => exact .nil
  | cons v sets ih =>
    rw [List.forall_mem_cons] at hsets
    rw [List.length_cons, a.names_succ _ v.2, List.zip_cons_cons, List.map_cons]
    have hset := (phrase_of_generates hsets.1).join (g := " = ".toList) (by decide)
      (delimited_cons _ (by decide)) (phrase_placeholder a.next)
    rw [← String.toList_append, ← String.toList_append, ← String.append_assoc] at hset
    exact .cons hset (ih hsets.2 (a.bind v.2))

/-- The text of an UPDATE has a placeholder for each new value and for each value of its
conditions. -/
theorem phrase_update {s : Update} (hs : s.Sound) {a a' : Allocator} {sql : String}
    (h : s.render.outcome a = (.ok sql, a')) :
    Phrase sql.toList (a.names (s.sets.map (·.2) ++
      WhereClause.allValues a.options.patterns s.clauses).length) := by
  obtain ⟨-, table, htable, clauses, hclauses, rfl⟩ := Update.render_ok h
  have hwhere := WhereClause.phrases_of_renderAll
    (fun w hw c hc => Condition.phrase_of_sound (hs.clauses w hw c hc)) hclauses
  have hsets := (phrases_sets hs.sets a).intercalate (g := ", ") (by decide)
    (delimited_cons _ (by decide))
  -- the conditions follow the last assignment directly, with a blank of their own
  have htail := hsets.append (trailing_whereSuffix hwhere).delimited
    (trailing_whereSuffix hwhere).toPhrase
  have hbody := (phrase_of_isTable (hs.target table htable)).join (g := " SET ".toList) (by decide)
    (delimited_cons _ (by decide)) htail
  rw [Allocator.names_append rfl, List.length_map, String.append_assoc, String.append_assoc,
    String.append_assoc, String.toList_append]
  simp only [← String.toList_append] at hbody
  rw [Allocator.bindAll_options] at hbody
  exact hbody.gap (by decide)

/-- The text of a DELETE has a placeholder for each value of its conditions. -/
theorem phrase_delete {s : Delete} (hs : s.Sound) {a a' : Allocator} {sql : String}
    (h : s.render.outcome a = (.ok sql, a')) :
    Phrase sql.toList (a.names (WhereClause.allValues a.options.patterns s.clauses).length) := by
  obtain ⟨table, htable, clauses, hclauses, rfl⟩ := Delete.render_ok h
  have hwhere := WhereClause.phrases_of_renderAll
    (fun w hw c hc => Condition.phrase_of_sound (hs.clauses w hw c hc)) hclauses
  have hbody := (phrase_of_isTable (hs.target table htable)).append
    (trailing_whereSuffix hwhere).delimited (trailing_whereSuffix hwhere).toPhrase
  rw [String.append_assoc, String.toList_append, String.toList_append]
  exact hbody.gap (by decide)

namespace Statement

/-- A statement made by calls is not written by hand. -/
theorem Made.ne_raw {s : Statement} (hs : s.Made) (r : RawSql) : s ≠ .raw r := by
  rintro rfl
  cases hs

/-- The text of a statement made by calls has the placeholders of its values. -/
theorem phrase_of_render {s : Statement} (hs : s.Made) {a a' : Allocator} {sql : String}
    (ha : a.options = s.options) (h : s.render.outcome a = (.ok sql, a')) :
    Phrase sql.toList (a.names s.values.length) := by
  cases hs with
  | select hq =>
    have := Select.phrase_of_sound (Select.sound_of_made hq) h
    rwa [ha] at this
  | insert table calls =>
    have := phrase_insert (Insert.sound_ofCalls table calls) h
    rwa [values, List.length_map]
  | update table hcalls =>
    have := phrase_update (Update.sound_ofCalls table hcalls) h
    rwa [ha] at this
  | delete table hcalls =>
    have := phrase_delete (Delete.sound_ofCalls table hcalls) h
    rwa [ha] at this

/-- In the text of a statement made by calls no quote is left open, the placeholders outside of
quotes are the names of the parameters, and none of them is there twice. -/
theorem placeholders_of_build {s : Statement} (hs : s.Made) {q : BuiltQuery}
    (h : s.build = .ok q) :
    Closed q.sql.toList ∧ (placeholders q.sql).Perm (q.params.entries.map (·.1)) ∧
      (placeholders q.sql).Nodup := by
  obtain ⟨a, hrender, -⟩ := build_ok h
  have hphrase := phrase_of_render hs rfl hrender
  have hnames := names_of_build hs.ne_raw h
  refine ⟨hphrase.closed, ?_, ?_⟩
  · rw [hnames]
    exact hphrase.names
  · exact hphrase.names.nodup_iff.mpr (Allocator.names_nodup _ _)

/-- A literal, a pattern and a column that look like placeholders, and a select in a group. -/
theorem placeholders_of_build_lookalikes :
    let inner : Select := (((({} : Select).field (.column "\"$2\"")).table "u").filterAll
      [.test (.value (.text "c")) ">" (some (.value (.int 2)))])
    let s : Statement := .delete (.ofCalls "t" [.filters [
      .test (.value (.text "f('$0')")) "like" (some (.value (.text "a'$1"))),
      .group .or [.test (.select inner) "=" (some (.value (.int 1)))]]])
    let sql := "DELETE FROM \"t\" WHERE F('$0') LIKE 'a''$1' AND " ++
      "((SELECT \"$2\" FROM \"u\" WHERE \"c\" > $1) = $0)"
    s.build = .ok ⟨sql, ⟨[("$0", .int 1), ("$1", .int 2)]⟩⟩ ∧
      Closed sql.toList ∧ (placeholders sql).Perm ["$0", "$1"] ∧ (placeholders sql).Nodup := by
  intro inner s sql
  have hbuild : s.build = .ok ⟨sql, ⟨[("$0", .int 1), ("$1", .int 2)]⟩⟩ := by decide +kernel
  have hquery : inner.Made := by
    refine .filters (.table "u" (.field .new (.column "\"$2\""))) ?_
    exact List.forall_mem_singleton.mpr
      (.test ">" (.value _) fun o ho => Option.some.inj ho ▸ .value _)
  have hmade : s.Made := by
    refine .delete "t" (List.forall_mem_singleton.mpr (List.forall_mem_cons.mpr ⟨?_, ?_⟩))
    · exact .test "like" (.value _) fun o ho => Option.some.inj ho ▸ .value _
    · refine List.forall_mem_singleton.mpr (.group .or (List.forall_mem_singleton.mpr ?_))
      exact .test "=" (.select hquery) fun o ho => Option.some.inj ho ▸ .value _
  exact ⟨hbuild, placeholders_of_build hmade hbuild⟩

end Statement

end SqlAssembly

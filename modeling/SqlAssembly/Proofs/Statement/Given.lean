import SqlAssembly.Proofs.Statement.Placed
import SqlAssembly.Proofs.Statement.Splitting

namespace SqlAssembly

/-!
# Columns that calls give

The columns of a statement are the quoted forms of the expressions that its calls were given, and
every alias in its text is one that a caller wrote.

* `CallKind.placed`, `Builder.Accepted` — the texts in the parts of a statement;
* `Builder.queries`, `Builder.Classified` — what a call is given that was put together before;
* `Select.Called`, `Builder.accepted_ofCalls` — every call keeps the texts as their places say;
* `Builder.Gives`, `Adds` — the column expressions that a call gives, and what it adds for them;
* `Builder.columns_of_build` — the columns and the aliases of a built statement.
-/

open Grammar Sql

/-! ### Texts in the parts of a statement -/

theorem Field.allPlaced_append (fs gs : List Field) :
    allPlaced (fs ++ gs) = allPlaced fs ++ allPlaced gs := by
  induction fs with
  | nil => rfl
  | cons f fs ih => rw [List.cons_append, allPlaced, allPlaced, ih, List.append_assoc]

theorem Condition.allPlaced_append (cs ds : List Condition) :
    allPlaced (cs ++ ds) = allPlaced cs ++ allPlaced ds := by
  induction cs with
  | nil => rfl
  | cons c cs ih => rw [List.cons_append, allPlaced, allPlaced, ih, List.append_assoc]

/-- The texts of clauses are those of their conditions. -/
theorem WhereClause.allPlaced_eq (ws : List WhereClause) :
    allPlaced ws = Condition.allPlaced (ws.flatMap conditions) := by
  induction ws with
  | nil => rfl
  | cons w ws ih =>
    rw [allPlaced, ih, List.flatMap_cons, Condition.allPlaced_append]
    cases w
    rw [placed, conditions, Condition.allPlaced]

theorem WhereClause.allPlaced_append (ws vs : List WhereClause) :
    allPlaced (ws ++ vs) = allPlaced ws ++ allPlaced vs := by
  simp only [allPlaced_eq, List.flatMap_append, Condition.allPlaced_append]

/-- The texts that are placed for a part of a statement. -/
def CallKind.placed : (k : CallKind) → k.Part → List Placed
  | .field, fields => Field.allPlaced fields
  | .table, tables => tables.map (Prod.mk .table)
  | .join, joins => joins.flatMap Join.placed
  | .condition, clauses => WhereClause.allPlaced clauses
  | .order, entries => entries.map fun o => (.column, o.1)
  | .value, values => values.map fun v => (.column, v.1)
  | .column, columns => columns.flatMap CreateTable.columnPlaced
  | .named, alias? => alias?.toList.map fun name => (.entry, " AS " ++ name)
  | .limit, _ | .offset, _ | .options, _ | .presence, _ => []

namespace Builder

variable {b : Builder} {k : CallKind} {s : b.State}

/-- The table of a statement and the texts in all of its parts are as their places say. -/
structure Accepted (b : Builder) (s : b.State) : Prop where
  table : AllAccepted (b.target s).placed
  parts : ∀ k : CallKind, AllAccepted (k.placed (b.part k s))

namespace Accepted

/-- Another part with accepted texts is put in. -/
theorem put (hs : b.Accepted s) {v : k.Part} (hv : AllAccepted (k.placed v)) :
    b.Accepted (b.put k v s) := by
  refine ⟨?_, fun k' => ?_⟩
  · rw [target_put]
    exact hs.table
  · by_cases hk : k = k'
    · obtain rfl := hk
      -- where there is no such part, nothing was put in
      cases b <;> cases k <;> first | exact hv | exact hs.parts _
    · rw [part_put_of_ne hk]
      exact hs.parts k'

/-- An error leaves all texts as they are. -/
theorem record (hs : b.Accepted s) (e : Error) : b.Accepted (b.record s e) := by
  refine ⟨?_, fun k => ?_⟩
  · rw [target_record]
    exact hs.table
  · rw [part_record]
    exact hs.parts k

/-- What is placed in the statement is as its place says. -/
theorem statement (hs : b.Accepted s) : AllAccepted (b.statement s).placed := by
  obtain ⟨htable, hparts⟩ := hs
  cases b with
  | select =>
    show AllAccepted (Select.placed s)
    cases s
    rw [Select.placed]
    simp only [allAccepted_append]
    exact ⟨hparts .field, hparts .table, hparts .join, hparts .condition, hparts .order⟩
  | insert => exact allAccepted_append.mpr ⟨htable, hparts .value⟩
  | update =>
    exact allAccepted_append.mpr
      ⟨htable, allAccepted_append.mpr ⟨hparts .value, hparts .condition⟩⟩
  | delete => exact allAccepted_append.mpr ⟨htable, hparts .condition⟩
  | createTable => exact allAccepted_append.mpr ⟨htable, hparts .column⟩

end Accepted

end Builder

/-! ### What a call is given -/

/-- The query that an entry of a select list may be. -/
def FieldSpec.query? : FieldSpec → Option Select
  | .subquery query => some query
  | .column _ | .call _ => none

/-- The queries that a call is given. -/
def Select.Call.queries : Select.Call → List Select
  | .field spec => spec.query?.toList
  | .fields specs => specs.flatMap fun spec => spec.query?.toList
  | .filters fs => Filter.allQueries fs
  | .condition c => c.queries
  | .table _ | .join .. | .orderBy .. | .limit _ | .offset _ | .named _ | .options _ => []

/-- A condition that a call is given was a filter before. -/
def Select.Call.Classified : Select.Call → Prop
  | .condition c => ∃ f, Condition.classify f = .ok c
  | _ => True

@[inherit_doc Select.Call.queries]
def Update.Call.queries : Update.Call → List Select
  | .filters fs => Filter.allQueries fs
  | .set _ _ | .setAll _ | .options _ => []

@[inherit_doc Select.Call.queries]
def Delete.Call.queries : Delete.Call → List Select
  | .filters fs => Filter.allQueries fs
  | .options _ => []

@[inherit_doc Select.Call.queries]
def Builder.queries : (b : Builder) → b.Call → List Select
  | .select => Select.Call.queries
  | .update => Update.Call.queries
  | .delete => Delete.Call.queries
  | .insert | .createTable => fun _ => []

@[inherit_doc Select.Call.Classified]
def Builder.Classified : (b : Builder) → b.Call → Prop
  | .select => Select.Call.Classified
  | .insert | .update | .delete | .createTable => fun _ => True

/-- Queries that are put together by calls, as are the queries that the calls are given. -/
inductive Select.Called : Select → Prop
  | new : Called {}
  | after {q : Select} {c : Select.Call} (hq : Called q) (hc : c.Classified)
    (hqueries : ∀ p ∈ c.queries, Called p) : Called (q.after c)

/-- A call with queries that were put together by calls, and with a condition that was a filter. -/
structure Builder.Checked (b : Builder) (c : b.Call) : Prop where
  classified : b.Classified c
  queries : ∀ q ∈ b.queries c, q.Called

/-! ### Every call adds accepted texts -/

/-- The quoted form of an expression is accepted as an entry. -/
theorem accepts_generates {sql : String} (h : Generates .expression sql.toList) :
    AllAccepted [(.entry, sql)] :=
  List.forall_mem_singleton.mpr (.inl h)

/-- The texts of a query and of the alias that it has as an entry. -/
theorem Select.accepted_subquery {q : Select} (hq : Builder.Accepted .select q) :
    AllAccepted (Field.subquery q).placed := by
  rw [Field.placed, allAccepted_append]
  exact ⟨hq.statement, hq.parts .named⟩

/-- The texts of an entry are accepted, if it embeds no query of which they are not. -/
theorem FieldSpec.accepted {spec : FieldSpec} {f : Field} (h : spec.field = .ok f)
    (hquery : ∀ q ∈ spec.query?, Builder.Accepted .select q) : AllAccepted f.placed := by
  cases spec with
  | column expr =>
    obtain ⟨sql, hsql, rfl⟩ := map_eq_ok.mp h
    rw [Field.placed]
    exact accepts_generates (generates_of_quoteColumn hsql)
  | call call =>
    obtain ⟨sql, hsql, rfl⟩ := map_eq_ok.mp h
    rw [Field.placed, hsql]
    exact accepts_generates (generates_of_functionCall hsql)
  | subquery query =>
    cases h
    exact Select.accepted_subquery (hquery query rfl)

/-- The texts of a clause are accepted, if those of the queries in its filters are. -/
theorem WhereClause.accepted {fs : List Filter} {w : WhereClause} (h : ofFilters fs = .ok w)
    (hqueries : ∀ q ∈ Filter.allQueries fs, Builder.Accepted .select q) :
    AllAccepted (allPlaced [w]) := by
  -- what is placed in the clause is placed in the conditions that its filters became
  have hcs := classifyAll_of_ofFilters h
  rw [allPlaced_eq, List.flatMap_singleton]
  exact Condition.allAccepted_allPlaced _
    (accepts_of_quotedAs (Filter.quotedAs_of_classifyAll fs hcs))
    fun q hq => (hqueries q (Filter.allQueries_of_classifyAll fs hcs q hq)).statement

/-- A join is on the quoted forms of the two columns. -/
theorem Select.quotedAs_of_joinOf {kind : JoinKind} {table left right : String} {j : Join}
    (h : joinOf kind table left right = .ok j) :
    IsTable j.table.toList ∧ List.Forall₂ QuotedAs [left, right] [j.left, j.right] := by
  obtain ⟨t, ht, h⟩ := bind_eq_ok.mp h
  obtain ⟨l, hl, h⟩ := bind_eq_ok.mp h
  obtain ⟨r, hr, h⟩ := bind_eq_ok.mp h
  cases h
  exact ⟨isTable_of_quoteTable ht,
    .cons (quotedAs_of_quoteColumn hl) (.cons (quotedAs_of_quoteColumn hr) .nil)⟩

/-- The table and both columns of a join are accepted. -/
theorem Select.accepted_joinOf {kind : JoinKind} {table left right : String} {j : Join}
    (h : joinOf kind table left right = .ok j) : AllAccepted j.placed := by
  obtain ⟨htable, hcolumns⟩ := quotedAs_of_joinOf h
  have haccepts := accepts_of_quotedAs hcolumns
  simp only [List.forall_mem_cons] at haccepts
  simp only [AllAccepted, Join.placed, List.forall_mem_cons]
  exact ⟨htable, haccepts.1, haccepts.2.1, List.forall_mem_nil _⟩

namespace Builder

variable {b : Builder} {s : b.State}

/-- The quoted form of a column may stand where a column does. -/
theorem accepted_column {column c : String} (h : quoteColumn column = .ok c) :
    AllAccepted [(.column, c)] :=
  List.forall_mem_singleton.mpr ⟨column, quotedAs_of_quoteColumn h⟩

/-- A change that leaves the texts as their places say. -/
def Sustains (b : Builder) (x : Change b.State) : Prop :=
  ∀ s, b.Accepted s → b.Accepted (Change.apply b.record s x)

/-- What was not accepted is recorded as an error, and then no text is changed. -/
theorem sustains_map {α : Type} {x : Except Error α} {change : α → b.State → b.State}
    (h : ∀ a, x = .ok a → b.Sustains (.ok (change a))) : b.Sustains (x.map change) := by
  cases x with
  | ok a => exact h a rfl
  | error e => exact fun s hs => hs.record e

/-- A change that adds texts to a part. -/
theorem sustains_add {k : CallKind} {change : b.State → b.State} {more : List Placed}
    (hmore : AllAccepted more) (hchange : ∀ s, ∃ v : k.Part,
      change s = b.put k v s ∧ k.placed v = k.placed (b.part k s) ++ more) :
    b.Sustains (.ok change) := by
  intro s hs
  obtain ⟨v, hput, hplaced⟩ := hchange s
  show b.Accepted (change s)
  rw [hput]
  refine hs.put ?_
  rw [hplaced]
  exact allAccepted_append.mpr ⟨hs.parts k, hmore⟩

/-- A change of a part that has no texts. -/
theorem sustains_setting {k : CallKind} {change : b.State → b.State}
    (hchange : ∀ s, ∃ v : k.Part, change s = b.put k v s ∧ k.placed v = []) :
    b.Sustains (.ok change) := by
  intro s hs
  obtain ⟨v, hput, hplaced⟩ := hchange s
  show b.Accepted (change s)
  rw [hput]
  refine hs.put ?_
  rw [hplaced]
  exact allAccepted_nil

/-- A change that adds the quoted form of a column, if there is one. -/
theorem sustains_column {k : CallKind} {column : String} {change : String → b.State → b.State}
    (hchange : ∀ a s, ∃ v : k.Part,
      change a s = b.put k v s ∧ k.placed v = k.placed (b.part k s) ++ [(.column, a)]) :
    b.Sustains ((quoteColumn column).map change) :=
  sustains_map fun a ha => sustains_add (accepted_column ha) (hchange a)

/-- A change that adds a clause whose texts are as their places say. -/
theorem sustains_add_clause {w : WhereClause} {change : b.State → b.State}
    (hw : AllAccepted (WhereClause.allPlaced [w]))
    (hchange : ∀ s, change s = b.put .condition (b.part .condition s ++ [w]) s) :
    b.Sustains (.ok change) :=
  sustains_add (k := .condition) hw fun s =>
    ⟨_, hchange s, WhereClause.allPlaced_append (b.part .condition s) [w]⟩

/-- A change that adds the clause of some filters, if there is one. -/
theorem sustains_clause {fs : List Filter} {change : WhereClause → b.State → b.State}
    (hqueries : ∀ q ∈ Filter.allQueries fs, Accepted .select q)
    (hchange : ∀ w s, change w s = b.put .condition (b.part .condition s ++ [w]) s) :
    b.Sustains ((WhereClause.ofFilters fs).map change) :=
  sustains_map fun w hw => sustains_add_clause (WhereClause.accepted hw hqueries) (hchange w)

/-- A change that adds an entry to a select list, if it is one. -/
theorem sustains_field {spec : FieldSpec} (hquery : ∀ q ∈ spec.query?, Accepted .select q) :
    Sustains .select (Select.Call.fieldChange spec) := by
  refine sustains_map fun f hf => ?_
  refine sustains_add (k := .field) (FieldSpec.accepted hf hquery) fun q => ⟨_, rfl, ?_⟩
  show Field.allPlaced (Select.fields q ++ [f]) = Field.allPlaced (Select.fields q) ++ f.placed
  rw [Field.allPlaced_append, Field.allPlaced, Field.allPlaced, List.append_nil]

/-- The texts of a condition that was a filter are as their places say, also in a clause. -/
theorem accepted_classified {c : Condition} (hc : ∃ f, Condition.classify f = .ok c)
    (hqueries : ∀ q ∈ c.queries, Accepted .select q) :
    AllAccepted (WhereClause.allPlaced [⟨c, []⟩]) := by
  obtain ⟨f, hf⟩ := hc
  rw [WhereClause.allPlaced_eq, List.flatMap_singleton, WhereClause.conditions,
    Condition.allPlaced, Condition.allPlaced, List.append_nil]
  exact c.allAccepted (accepts_of_quotedAs (f.quotedAs_of_classify hf))
    fun q hq => (hqueries q hq).statement

/-- Every change of a call on a query keeps the texts as their places say. -/
theorem sustains_select {c : Select.Call} (hclassified : c.Classified)
    (hqueries : ∀ q ∈ c.queries, Accepted .select q) : ∀ x ∈ c.changes, Sustains .select x := by
  cases c with
  | field spec =>
    exact List.forall_mem_singleton.mpr
      (sustains_field fun q hq => hqueries q (Option.mem_toList.mpr hq))
  | fields specs =>
    exact List.forall_mem_map.mpr fun spec hspec => sustains_field fun q hq =>
      hqueries q (List.mem_flatMap.mpr ⟨spec, hspec, Option.mem_toList.mpr hq⟩)
  | table expr =>
    refine List.forall_mem_singleton.mpr (sustains_map fun t ht => ?_)
    have htable : AllAccepted [(.table, t)] :=
      List.forall_mem_singleton.mpr (isTable_of_quoteTable ht)
    exact sustains_add (k := .table) htable fun _ => ⟨_, rfl, List.map_append⟩
  | join kind expr left right =>
    refine List.forall_mem_singleton.mpr (sustains_map fun j hj => ?_)
    refine sustains_add (k := .join) (Select.accepted_joinOf hj) fun q => ⟨_, rfl, ?_⟩
    show (Select.joins q ++ [j]).flatMap _ = (Select.joins q).flatMap _ ++ _
    rw [List.flatMap_append, List.flatMap_singleton]
  | filters fs => exact List.forall_mem_singleton.mpr (sustains_clause hqueries fun _ _ => rfl)
  | condition c =>
    exact List.forall_mem_singleton.mpr
      (sustains_add_clause (accepted_classified hclassified hqueries) fun _ => rfl)
  | orderBy column direction =>
    exact List.forall_mem_singleton.mpr
      (sustains_column (k := .order) fun _ _ => ⟨_, rfl, List.map_append⟩)
  | named name =>
    -- a name is put in the place of the one before
    refine List.forall_mem_singleton.mpr (sustains_map fun a ha s hs => ?_)
    refine hs.put (k := .named) (v := some a) (List.forall_mem_singleton.mpr (.inr ?_))
    exact ⟨a.toList, isName_of_quote ha, String.toList_append⟩
  | limit n =>
    exact List.forall_mem_singleton.mpr
      (sustains_setting (k := .limit) fun _ => ⟨some n, rfl, rfl⟩)
  | offset n =>
    exact List.forall_mem_singleton.mpr
      (sustains_setting (k := .offset) fun _ => ⟨some n, rfl, rfl⟩)
  | options o =>
    exact List.forall_mem_singleton.mpr
      (sustains_setting (k := .options) fun _ => ⟨o, rfl, rfl⟩)

/-- Every change of a call on an INSERT keeps the texts as their places say. -/
theorem sustains_insert (c : Insert.Call) : ∀ x ∈ c.changes, Sustains .insert x := by
  have hvalue : ∀ v : String × Value, Sustains .insert (Insert.Call.valueChange v) :=
    fun v => sustains_column (k := .value) fun _ _ => ⟨_, rfl, List.map_append⟩
  cases c with
  | value column v => exact List.forall_mem_singleton.mpr (hvalue (column, v))
  | values vs => exact List.forall_mem_map.mpr fun v _ => hvalue v
  | options o =>
    exact List.forall_mem_singleton.mpr
      (sustains_setting (k := .options) fun _ => ⟨o, rfl, rfl⟩)

/-- Every change of a call on an UPDATE keeps the texts as their places say. -/
theorem sustains_update {c : Update.Call} (hqueries : ∀ q ∈ c.queries, Accepted .select q) :
    ∀ x ∈ c.changes, Sustains .update x := by
  have hset : ∀ v : String × Value, Sustains .update (Update.Call.setChange v) :=
    fun v => sustains_column (k := .value) fun _ _ => ⟨_, rfl, List.map_append⟩
  cases c with
  | set column v => exact List.forall_mem_singleton.mpr (hset (column, v))
  | setAll vs => exact List.forall_mem_map.mpr fun v _ => hset v
  | filters fs => exact List.forall_mem_singleton.mpr (sustains_clause hqueries fun _ _ => rfl)
  | options o =>
    exact List.forall_mem_singleton.mpr
      (sustains_setting (k := .options) fun _ => ⟨o, rfl, rfl⟩)

/-- Every change of a call on a DELETE keeps the texts as their places say. -/
theorem sustains_delete {c : Delete.Call} (hqueries : ∀ q ∈ c.queries, Accepted .select q) :
    ∀ x ∈ c.changes, Sustains .delete x := by
  cases c with
  | filters fs => exact List.forall_mem_singleton.mpr (sustains_clause hqueries fun _ _ => rfl)
  | options o =>
    exact List.forall_mem_singleton.mpr
      (sustains_setting (k := .options) fun _ => ⟨o, rfl, rfl⟩)

/-- Every change of a call on a CREATE TABLE keeps the texts as their places say. -/
theorem sustains_createTable (c : CreateTable.Call) :
    ∀ x ∈ c.changes, Sustains .createTable x := by
  cases c with
  | column name type =>
    refine List.forall_mem_singleton.mpr (sustains_map fun a ha => ?_)
    have hcolumn : AllAccepted (CreateTable.columnPlaced (a, type)) :=
      List.forall_mem_cons.mpr ⟨isName_of_quote ha, List.forall_mem_singleton.mpr trivial⟩
    refine sustains_add (k := .column) hcolumn fun s => ⟨_, rfl, ?_⟩
    show (CreateTable.columns s ++ [(a, type)]).flatMap _ = (CreateTable.columns s).flatMap _ ++ _
    rw [List.flatMap_append, List.flatMap_singleton]
  | unlessThere =>
    exact List.forall_mem_singleton.mpr
      (sustains_setting (k := .presence) fun _ => ⟨true, rfl, rfl⟩)

/-- All changes by a call leave the texts as their places say. -/
theorem sustains_of_mem {c : b.Call} (hclassified : b.Classified c)
    (hqueries : ∀ q ∈ b.queries c, Accepted .select q) : ∀ x ∈ b.changes c, b.Sustains x := by
  cases b with
  | select => exact sustains_select hclassified hqueries
  | insert => exact sustains_insert c
  | update => exact sustains_update hqueries
  | delete => exact sustains_delete hqueries
  | createTable => exact sustains_createTable c

/-- A call keeps the texts as their places say. -/
theorem accepted_after {c : b.Call} (hclassified : b.Classified c)
    (hqueries : ∀ q ∈ b.queries c, Accepted .select q) (hs : b.Accepted s) :
    b.Accepted (b.after s c) := by
  rw [after_eq]
  exact foldl_invariant hs fun s x hx hs => sustains_of_mem hclassified hqueries x hx s hs

end Builder

/-- The texts of a query that is put together by calls are as their places say. -/
theorem Select.accepted_of_called {q : Select} (h : q.Called) : Builder.Accepted .select q := by
  induction h with
  | new => exact ⟨allAccepted_nil, fun k => by cases k <;> exact allAccepted_nil⟩
  | after _ hc _ hq hqueries => exact Builder.accepted_after hc hqueries hq

namespace Builder

variable {b : Builder}

/-- A chain of calls keeps the texts as their places say. -/
theorem accepted_foldl_after {s : b.State} {calls : List b.Call} (hs : b.Accepted s)
    (hcalls : ∀ c ∈ calls, b.Checked c) : b.Accepted (calls.foldl b.after s) :=
  foldl_invariant hs fun _ c hc hs => accepted_after (hcalls c hc).classified
    (fun q hq => Select.accepted_of_called ((hcalls c hc).queries q hq)) hs

/-- A statement begins with texts as their places say. -/
theorem accepted_start (x : b.Start) : b.Accepted (b.start x) := by
  have htable : ∀ name, AllAccepted (Target.ofName name).placed := fun name =>
    allAccepted_map.mpr fun table htable =>
      Target.sound_ofName name table (Option.mem_toList.mp htable)
  cases b with
  | select => exact ⟨allAccepted_nil, fun k => by cases k <;> exact allAccepted_nil⟩
  | insert => exact ⟨htable x, fun k => by cases k <;> exact allAccepted_nil⟩
  | update => exact ⟨htable x, fun k => by cases k <;> exact allAccepted_nil⟩
  | delete => exact ⟨htable x, fun k => by cases k <;> exact allAccepted_nil⟩
  | createTable =>
    obtain ⟨table, columns⟩ := x
    -- the first columns are added by calls, to a table without any
    have hempty : Accepted .createTable { target := .ofName table } :=
      ⟨htable table, fun k => by cases k <;> exact allAccepted_nil⟩
    have hcalls : ∀ c ∈ columns.map fun c => CreateTable.Call.column c.1 c.2,
        Checked .createTable c := fun _ _ => ⟨trivial, nofun⟩
    have hcolumns := accepted_foldl_after hempty hcalls
    rwa [List.foldl_map] at hcolumns

/-- The texts of a statement that is put together by calls are as their places say. -/
theorem accepted_ofCalls (x : b.Start) {calls : List b.Call} (hcalls : ∀ c ∈ calls, b.Checked c) :
    AllAccepted (b.ofCalls x calls).placed :=
  (accepted_foldl_after (accepted_start x) hcalls).statement

end Builder

/-! ### What calls add to the columns -/

/-- The columns of a part of a statement, without those of the queries in it. -/
def CallKind.columns : (k : CallKind) → k.Part → List String
  | .join, joins => joins.flatMap fun j => [j.left, j.right]
  | .condition, clauses => Condition.allTestedColumns (clauses.flatMap WhereClause.conditions)
  | .order, entries => entries.map (·.1)
  | .value, values => values.map (·.1)
  | .field, _ | .table, _ | .column, _ | .limit, _ | .offset, _ | .named, _ | .options, _
  | .presence, _ => []

/-- Parts of this kind have columns: an ON, a condition, an ORDER BY, a column list or a SET
list. -/
def CallKind.hasColumns : CallKind → Bool
  | .join | .condition | .order | .value => true
  | .field | .table | .column | .limit | .offset | .named | .options | .presence => false

/-- A step adds the quoted forms of some expressions to the columns. -/
def Adds {σ γ : Type} (step : σ → γ → σ) (columns : σ → List String) (c : γ)
    (exprs : List String) : Prop :=
  ∃ quoted, List.Forall₂ QuotedAs exprs quoted ∧ ∀ s, columns (step s c) = columns s ++ quoted

/-- Steps one after the other add what each of them adds, in order. -/
theorem Adds.foldl {σ γ : Type} {step : σ → γ → σ} {columns : σ → List String} {cs : List γ}
    {exprs : List String} (h : Cut (Adds step columns) cs exprs) :
    Adds (fun s (cs : List γ) => cs.foldl step s) columns cs exprs := by
  induction h with
  | nil => exact ⟨[], .nil, fun s => (List.append_nil _).symm⟩
  | cons hc _ ih =>
    obtain ⟨quoted, hquoted, hfirst⟩ := hc
    obtain ⟨others, hothers, hrest⟩ := ih
    refine ⟨quoted ++ others, List.rel_append hquoted hothers, fun s => (hrest _).trans ?_⟩
    rw [hfirst, List.append_assoc]

theorem Condition.allTestedColumns_append (cs ds : List Condition) :
    allTestedColumns (cs ++ ds) = allTestedColumns cs ++ allTestedColumns ds := by
  induction cs with
  | nil => rfl
  | cons c cs ih =>
    rw [List.cons_append, allTestedColumns, allTestedColumns, ih, List.append_assoc]

namespace Builder

/-- The column expressions that a call gives for a part of a statement.  A condition that is given
was a filter before. -/
inductive Gives : (b : Builder) → (k : CallKind) → b.Call → List String → Prop
  | join (kind : JoinKind) (table left right : String) :
    Gives .select .join (Select.Call.join kind table left right) [left, right]
  | filters (fs : List Filter) :
    Gives .select .condition (Select.Call.filters fs) (Filter.allNamedColumns fs)
  | classified {f : Filter} {c : Condition} (hf : Condition.classify f = .ok c) :
    Gives .select .condition (Select.Call.condition c) f.namedColumns
  | order (column : String) (direction : Direction) :
    Gives .select .order (Select.Call.orderBy column direction) [column]
  | value (column : String) (v : Value) : Gives .insert .value (Insert.Call.value column v) [column]
  | values (vs : List (String × Value)) :
    Gives .insert .value (Insert.Call.values vs) (vs.map (·.1))
  | set (column : String) (v : Value) : Gives .update .value (Update.Call.set column v) [column]
  | setAll (vs : List (String × Value)) :
    Gives .update .value (Update.Call.setAll vs) (vs.map (·.1))
  | updateFilters (fs : List Filter) :
    Gives .update .condition (Update.Call.filters fs) (Filter.allNamedColumns fs)
  | deleteFilters (fs : List Filter) :
    Gives .delete .condition (Delete.Call.filters fs) (Filter.allNamedColumns fs)
  | other {b : Builder} {k : CallKind} {c : b.Call} (hk : b.kind c ≠ k) : Gives b k c []

variable {b : Builder} {k : CallKind} {c : b.Call} {exprs : List String}

/-- The columns of a part of a statement, without those of the queries in it. -/
def columns (b : Builder) (k : CallKind) (s : b.State) : List String := k.columns (b.part k s)

/-- A call adds what its changes add. -/
theorem adds_after (h : Cut (Adds (Change.apply b.record) (b.columns k)) (b.changes c) exprs) :
    Adds b.after (b.columns k) c exprs := by
  obtain ⟨quoted, hquoted, hcolumns⟩ := Adds.foldl h
  refine ⟨quoted, hquoted, fun s => ?_⟩
  rw [after_eq]
  exact hcolumns s

/-- A change that adds one column. -/
theorem adds_column {column : String} {change : String → b.State → b.State}
    (hcolumn : failureOf (quoteColumn column) = none)
    (hchange : ∀ a s, b.columns k (change a s) = b.columns k s ++ [a]) :
    Adds (Change.apply b.record) (b.columns k) ((quoteColumn column).map change) [column] := by
  obtain ⟨a, ha⟩ := failureOf_eq_none.mp hcolumn
  rw [ha]
  exact ⟨[a], .cons (quotedAs_of_quoteColumn ha) .nil, hchange a⟩

/-- A change that adds a clause. -/
theorem adds_clause {fs : List Filter} {change : WhereClause → b.State → b.State}
    (hfs : Filter.errorOfAll fs = none) (hchange : ∀ w s,
      b.part .condition (change w s) = b.part .condition s ++ [w]) :
    Adds (Change.apply b.record) (b.columns .condition) ((WhereClause.ofFilters fs).map change)
      (Filter.allNamedColumns fs) := by
  obtain ⟨w, hw⟩ := failureOf_eq_none.mp ((Filter.failureOf_ofFilters fs).trans hfs)
  rw [hw]
  refine ⟨_, Filter.quotedAs_of_classifyAll fs (WhereClause.classifyAll_of_ofFilters hw),
    fun s => ?_⟩
  show CallKind.columns .condition (b.part .condition (change w s)) = _
  rw [hchange, CallKind.columns, List.flatMap_append, List.flatMap_singleton,
    Condition.allTestedColumns_append]
  rfl

/-- If nothing is wrong with a call, it adds the quoted forms of what it gives. -/
theorem adds_of_gives (h : b.Gives k c exprs) (hc : b.error? c = none) :
    Adds b.after (b.columns k) c exprs := by
  cases h with
  | join kind table left right =>
    obtain ⟨j, hj⟩ :=
      failureOf_eq_none.mp ((Select.failureOf_joinOf kind table left right).trans hc)
    refine adds_after (.whole ⟨_, (Select.quotedAs_of_joinOf hj).2, fun s => ?_⟩)
    rw [hj]
    exact List.flatMap_append
  | filters fs => exact adds_after (.whole (adds_clause hc fun _ _ => rfl))
  | @classified f c hf =>
    refine adds_after (.whole ⟨_, f.quotedAs_of_classify hf, fun s => ?_⟩)
    show Condition.allTestedColumns
      ((Select.clauses s ++ [(⟨c, []⟩ : WhereClause)]).flatMap _) = _
    rw [List.flatMap_append, List.flatMap_singleton, Condition.allTestedColumns_append]
    refine congrArg _ ?_
    rw [WhereClause.conditions, Condition.allTestedColumns, Condition.allTestedColumns,
      List.append_nil]
  | order column direction =>
    exact adds_after (.whole (adds_column hc fun _ _ => List.map_append))
  | value column v =>
    exact adds_after (.whole (adds_column hc fun _ _ => List.map_append))
  | values vs =>
    refine adds_after (.singles fun v hv => ?_)
    exact adds_column (List.findSome?_eq_none_iff.mp hc v hv) fun _ _ => List.map_append
  | set column v =>
    exact adds_after (.whole (adds_column hc fun _ _ => List.map_append))
  | setAll vs =>
    refine adds_after (.singles fun v hv => ?_)
    exact adds_column (List.findSome?_eq_none_iff.mp hc v hv) fun _ _ => List.map_append
  | updateFilters fs => exact adds_after (.whole (adds_clause hc fun _ _ => rfl))
  | deleteFilters fs => exact adds_after (.whole (adds_clause hc fun _ _ => rfl))
  | other hk =>
    -- a call about another part adds no column to this one
    refine ⟨[], .nil, fun s => ?_⟩
    rw [columns, part_after_of_ne hc hk, List.append_nil]
    rfl

/-- Every call gives some expressions, perhaps none. -/
theorem exists_gives (hk : k.hasColumns = true) (hc : b.Classified c) :
    ∃ exprs, b.Gives k c exprs := by
  -- a call gives expressions for the part that it is about, and none for another
  by_cases hkind : b.kind c = k
  · subst hkind
    cases b with
    | select =>
      cases c with
      | join kind table left right => exact ⟨_, .join kind table left right⟩
      | filters fs => exact ⟨_, .filters fs⟩
      | condition c =>
        obtain ⟨f, hf⟩ := hc
        exact ⟨_, .classified hf⟩
      | orderBy column direction => exact ⟨_, .order column direction⟩
      | field | fields | table | limit | offset | named | options => cases hk
    | insert =>
      cases c with
      | value column v => exact ⟨_, .value column v⟩
      | values vs => exact ⟨_, .values vs⟩
      | options => cases hk
    | update =>
      cases c with
      | set column v => exact ⟨_, .set column v⟩
      | setAll vs => exact ⟨_, .setAll vs⟩
      | filters fs => exact ⟨_, .updateFilters fs⟩
      | options => cases hk
    | delete =>
      cases c with
      | filters fs => exact ⟨_, .deleteFilters fs⟩
      | options => cases hk
    | createTable => cases c <;> cases hk
  · exact ⟨[], .other hkind⟩

/-- Calls of other kinds give nothing. -/
theorem gives_others {k : CallKind} (b : Builder) (calls : List b.Call)
    (h : ∀ c ∈ calls, b.kind c ≠ k) : Cut (b.Gives k) calls [] := by
  induction calls with
  | nil => exact .nil
  | cons c calls ih =>
    rw [List.forall_mem_cons] at h
    exact Cut.cons (.other h.1) (ih h.2)

/-- Calls give some expressions, in blocks of one call each. -/
theorem exists_cut_gives (hk : k.hasColumns = true) {calls : List b.Call}
    (hcalls : ∀ c ∈ calls, b.Classified c) : ∃ exprs, Cut (b.Gives k) calls exprs := by
  induction calls with
  | nil => exact ⟨[], .nil⟩
  | cons c calls ih =>
    rw [List.forall_mem_cons] at hcalls
    obtain ⟨first, hfirst⟩ := exists_gives hk hcalls.1
    obtain ⟨rest, hrest⟩ := ih hcalls.2
    exact ⟨first ++ rest, .cons hfirst hrest⟩

/-- If nothing is wrong with any call, the columns are the quoted forms of what the calls give. -/
theorem quotedAs_foldl_after {s : b.State} {calls : List b.Call} (hs : b.columns k s = [])
    (hcalls : ∀ c ∈ calls, b.error? c = none) (h : Cut (b.Gives k) calls exprs) :
    List.Forall₂ QuotedAs exprs (b.columns k (calls.foldl b.after s)) := by
  have hadds : Cut (Adds b.after (b.columns k)) calls exprs := by
    induction h with
    | nil => exact .nil
    | cons hc _ ih =>
      rw [List.forall_mem_cons] at hcalls
      exact .cons (adds_of_gives hc hcalls.1) (ih hcalls.2)
  obtain ⟨quoted, hquoted, hcolumns⟩ := Adds.foldl hadds
  have hfinal := hcolumns s
  rw [hs, List.nil_append] at hfinal
  rwa [← hfinal] at hquoted

/-- A statement begins without columns. -/
theorem columns_start (hk : k.hasColumns = true) (x : b.Start) : b.columns k (b.start x) = [] := by
  cases k with
  | field | table | column | limit | offset | named | options | presence => cases hk
  | join | condition | order | value =>
    cases b <;> rfl

end Builder

/-! ### Columns in the text -/

mutual

/-- The columns that a condition tests are placed in it as columns. -/
theorem Condition.mem_placed : ∀ (c : Condition), ∀ column ∈ c.testedColumns,
    (Place.column, column) ∈ c.placed
  | .compare _ _ _, column, h | .nullCheck _ _, column, h | .inList _ _ _, column, h
  | .between _ _ _ _, column, h | .pattern _ _ _, column, h => by
    rw [testedColumns, List.mem_singleton] at h
    rw [placed, h]
    exact List.mem_singleton_self _
  | .columns field _ other, column, h => by
    rw [testedColumns] at h
    rw [placed]
    exact List.mem_map_of_mem (f := Prod.mk Place.column) h
  | .group _ conditions, column, h => by
    rw [placed]
    exact Condition.mem_allPlaced conditions column h
  | .subquery _ _ _, column, h | .raw _, column, h => by
    rw [testedColumns] at h
    cases h

/-- The columns that conditions test are placed in them as columns. -/
theorem Condition.mem_allPlaced : ∀ (cs : List Condition), ∀ column ∈ allTestedColumns cs,
    (Place.column, column) ∈ allPlaced cs
  | [], column, h => by
    rw [allTestedColumns] at h
    cases h
  | c :: rest, column, h => by
    rw [allTestedColumns, List.mem_append] at h
    rw [allPlaced, List.mem_append]
    exact h.imp (Condition.mem_placed c column) (Condition.mem_allPlaced rest column)

end

namespace Builder

variable {b : Builder} {k : CallKind} {s : b.State}

/-- What is placed for a part with columns is placed in the statement. -/
theorem placed_part_subset (hk : k.hasColumns = true) :
    k.placed (b.part k s) ⊆ (b.statement s).placed := by
  intro p hp
  -- the parts of a query stand one behind the other in what is placed in it
  have hselect : ∀ q : Select, p ∈ q.placed ↔ p ∈ Field.allPlaced q.fields ∨
      p ∈ q.tables.map (Prod.mk .table) ∨ p ∈ q.joins.flatMap Join.placed ∨
      p ∈ WhereClause.allPlaced q.clauses ∨ p ∈ q.order.map fun o => (.column, o.1) := by
    rintro ⟨⟩
    rw [Select.placed]
    simp only [List.mem_append]
  cases k with
  | field | table | column | limit | offset | named | options | presence => cases hk
  | join =>
    cases b with
    | select => exact (hselect s).mpr (.inr (.inr (.inl hp)))
    | insert | update | delete | createTable => cases hp
  | condition =>
    cases b with
    | select => exact (hselect s).mpr (.inr (.inr (.inr (.inl hp))))
    | update => exact List.mem_append_right _ (List.mem_append_right _ hp)
    | delete => exact List.mem_append_right _ hp
    | insert | createTable => cases hp
  | order =>
    cases b with
    | select => exact (hselect s).mpr (.inr (.inr (.inr (.inr hp))))
    | insert | update | delete | createTable => cases hp
  | value =>
    cases b with
    | insert => exact List.mem_append_right _ hp
    | update => exact List.mem_append_right _ (List.mem_append_left _ hp)
    | select | delete | createTable => cases hp

/-- The columns of a statement are placed in its text. -/
theorem mem_placed_of_mem_columns (hk : k.hasColumns = true) {column : String}
    (h : column ∈ b.columns k s) : (Place.column, column) ∈ (b.statement s).placed := by
  refine placed_part_subset hk ?_
  unfold columns at h
  generalize b.part k s = part at h ⊢
  cases k with
  | field | table | column | limit | offset | named | options | presence => cases hk
  | join =>
    obtain ⟨j, hj, hcolumn⟩ := List.mem_flatMap.mp h
    refine List.mem_flatMap.mpr ⟨j, hj, List.mem_cons_of_mem _ ?_⟩
    exact List.mem_map_of_mem (f := Prod.mk Place.column) hcolumn
  | condition =>
    show _ ∈ WhereClause.allPlaced part
    rw [WhereClause.allPlaced_eq]
    exact Condition.mem_allPlaced _ column h
  | order =>
    obtain ⟨o, ho, rfl⟩ := List.mem_map.mp h
    exact List.mem_map_of_mem (f := fun o : String × Direction => (Place.column, o.1)) ho
  | value =>
    obtain ⟨v, hv, rfl⟩ := List.mem_map.mp h
    exact List.mem_map_of_mem (f := fun v : String × Value => (Place.column, v.1)) hv

/-! ### Columns and aliases of a built statement -/

/-- A built statement had nothing wrong with any call. -/
theorem error?_of_build {x : b.Start} {calls : List b.Call} {q : BuiltQuery}
    (h : (b.ofCalls x calls).build = .ok q) : ∀ c ∈ calls, b.error? c = none := by
  have hfault : (b.target (calls.foldl b.after (b.start x))).fault = none := by
    cases hfault : (b.target (calls.foldl b.after (b.start x))).fault with
    | none => rfl
    | some e =>
      have herror := build_of_fault hfault
      rw [← ofCalls, h] at herror
      cases herror
  rw [fault_foldl_after, Option.or_eq_none_iff] at hfault
  exact List.findSome?_eq_none_iff.mp hfault.2

/-- The columns in the conditions, the column list, the SET list, the ORDER BY and the ONs of a
built statement are the quoted forms of the expressions that its calls were given, in order: with an
alias, or a bare star, exactly where the expression is one with an alias, or a star.  All texts that
are placed in the statement are as their places say; and if its fragments are self-contained, the
rest of the text has no alias, so its aliases are those of the texts that are placed in it. -/
theorem columns_of_build {x : b.Start} {calls : List b.Call} (hcalls : ∀ c ∈ calls, b.Checked c)
    {q : BuiltQuery} (h : (b.ofCalls x calls).build = .ok q) :
    let s := calls.foldl b.after (b.start x)
    let placed := (b.ofCalls x calls).placed
    (∀ k : CallKind, k.hasColumns = true →
      (∀ column ∈ b.columns k s, (.column, column) ∈ placed) ∧
      (∃ exprs, Cut (b.Gives k) calls exprs) ∧
      ∀ exprs, Cut (b.Gives k) calls exprs → List.Forall₂ QuotedAs exprs (b.columns k s)) ∧
    AllAccepted placed ∧
    ((∀ p ∈ placed, p.1 = .fragment → SelfContained p.2) →
      Laid (tokens q.sql.toList) (placed.map fun p => tokens p.2.toList) ∧
      aliases q.sql = placed.flatMap fun p => aliases p.2) := by
  intro s placed
  have hplaced : AllAccepted placed := accepted_ofCalls x hcalls
  refine ⟨fun k hk => ⟨fun column hcolumn => mem_placed_of_mem_columns hk hcolumn,
    exists_cut_gives hk fun c hc => (hcalls c hc).classified,
    fun exprs hexprs => quotedAs_foldl_after (columns_start hk x) (error?_of_build h) hexprs⟩,
    hplaced, fun hfragments => ?_⟩
  have hcontained : ∀ p ∈ placed, SelfContained p.2 :=
    fun p hp => (hplaced p hp).selfContained (hfragments p hp)
  obtain ⟨a, hrender, -⟩ := Statement.build_ok h
  -- the text is composed of what is placed in it, with connectives around
  have hcomposed := Statement.composed_of_render _ (fun p hp => (hcontained p hp).closed) hrender
  have hlaid : Laid (tokens q.sql.toList) (placed.map fun p => tokens p.2.toList) := by
    have := hcomposed.laid
    rwa [List.map_map] at this
  refine ⟨hlaid, ?_⟩
  rw [aliases, hlaid.aliasNames_eq, List.flatMap_map]
  · rfl
  · intro p hp
    obtain ⟨text, htext, rfl⟩ := List.mem_map.mp hp
    exact (hcontained text htext).settled

/-- A query with aliases and a star in its entries, its tables, a call, a subquery and its order. -/
theorem columns_of_build_aliased :
    let inner : Select := [Select.Call.field (.column "x AS y"), .table "v"].foldl Select.after {}
    let before : List Select.Call :=
      [.field (.column "id AS i"), .table "t a", .join .left "u" "a.id" "u.t_id"]
    let filters : List Filter :=
      [.test (.select inner) ">" (some (.value (.int 1))), .raw "z IS NULL"]
    let calls : List Select.Call := before ++ [.filters filters,
      .condition (.compare "MAX(\"n\" AS \"k\")" .lt (.int 2)), .orderBy "n AS m" .asc,
      .orderBy "*" .desc]
    let q : BuiltQuery := ⟨"SELECT \"id\" AS \"i\" FROM \"t\" AS \"a\" " ++
      "LEFT JOIN \"u\" ON \"a\".\"id\" = \"u\".\"t_id\" " ++
      "WHERE (SELECT \"x\" AS \"y\" FROM \"v\") > $0 AND z IS NULL AND MAX(\"n\" AS \"k\") < $1 " ++
      "ORDER BY \"n\" AS \"m\" ASC, * DESC", ⟨[("$0", .int 1), ("$1", .int 2)]⟩⟩
    (∀ c ∈ calls, Checked .select c) ∧ (ofCalls .select () calls).build = .ok q ∧
    List.Forall₂ QuotedAs ["a.id", "u.t_id"] ["\"a\".\"id\"", "\"u\".\"t_id\""] ∧
    List.Forall₂ QuotedAs ["MAX(n k)"] ["MAX(\"n\" AS \"k\")"] ∧
    List.Forall₂ QuotedAs ["n AS m", "*"] ["\"n\" AS \"m\"", "*"] ∧
    aliases q.sql = ["i", "a", "y", "k", "m"] := by
  intro inner before filters calls q
  have hinner : inner.Called :=
    .after (c := .table "v") (.after (c := .field (.column "x AS y")) .new trivial nofun)
      trivial nofun
  have hclassified : Condition.classify (.test (.value (.text "MAX(n k)")) "<"
      (some (.value (.int 2)))) = .ok (.compare "MAX(\"n\" AS \"k\")" .lt (.int 2)) := by
    have hfield : fieldOf (.value (.text "MAX(n k)")) = .ok "MAX(\"n\" AS \"k\")" := by
      decide +kernel
    have hop : operatorOf "<" = .ok .lt := by decide +kernel
    rw [Condition.classify, Condition.test, hfield, hop]
    · rfl
    · nofun
    · nofun
  have hcalls : ∀ c ∈ calls, Checked .select c := by
    simp only [calls, before, List.forall_mem_append, List.forall_mem_cons]
    refine ⟨⟨⟨trivial, nofun⟩, ⟨trivial, nofun⟩, ⟨trivial, nofun⟩, nofun⟩, ⟨trivial, ?_⟩,
      ⟨⟨_, hclassified⟩, nofun⟩, ⟨trivial, nofun⟩, ⟨trivial, nofun⟩, nofun⟩
    exact List.forall_mem_singleton.mpr hinner
  have hbuild : (ofCalls .select () calls).build = .ok q := by decide +kernel
  obtain ⟨hcolumns, -, haliases⟩ := columns_of_build hcalls hbuild
  have hfragments : ∀ p ∈ (ofCalls .select () calls).placed,
      p.1 = .fragment → SelfContained p.2 := by
    have hraw : SelfContained "z IS NULL" :=
      ⟨(Composed.of_connective (by decide +kernel)).closed, by decide +kernel⟩
    have hplaced : ∀ p ∈ (ofCalls .select () calls).placed,
        p.1 = .fragment → p.2 = "z IS NULL" := by decide +kernel
    intro p hp hfragment
    rwa [hplaced p hp hfragment]
  have hgiven : ∀ k exprs columns, k.hasColumns = true → Cut (Gives .select k) calls exprs →
      Builder.columns .select k (calls.foldl Select.after {}) = columns →
      List.Forall₂ QuotedAs exprs columns := by
    intro k exprs columns hk hcut hvalue
    obtain ⟨-, -, hquoted⟩ := hcolumns k hk
    exact hvalue ▸ hquoted exprs hcut
  have hjoin : Cut (Gives .select .join) calls ["a.id", "u.t_id"] :=
    .append (gives_others .select (before.take 2) (by decide))
      (.cons (.join .left "u" "a.id" "u.t_id") (gives_others .select _ (by decide)))
  have hcondition : Cut (Gives .select .condition) calls ["MAX(n k)"] :=
    .append (gives_others .select before (by decide))
      (.cons (.filters filters)
        (.cons (.classified hclassified) (gives_others .select _ (by decide))))
  have horder : Cut (Gives .select .order) calls ["n AS m", "*"] :=
    .append (gives_others .select (calls.take 5) (by decide))
      (.cons (Gives.order "n AS m" .asc) (.cons (Gives.order "*" .desc) .nil))
  exact ⟨hcalls, hbuild, hgiven _ _ _ rfl hjoin (by decide +kernel),
    hgiven _ _ _ rfl hcondition (by decide +kernel), hgiven _ _ _ rfl horder (by decide +kernel),
    (haliases hfragments).2.trans (by decide +kernel)⟩

/-- An alias in a column list, and a star in an ORDER BY. -/
theorem alias_in_column_list :
    let insert : Statement := ofCalls .insert "t" [Insert.Call.value "a AS b" (.int 1)]
    let calls : List Select.Call := [.field (.column "a"), .table "t", .orderBy "*" .asc]
    insert.build = .ok ⟨"INSERT INTO \"t\" (\"a\" AS \"b\") VALUES ($0)", ⟨[("$0", .int 1)]⟩⟩ ∧
    insert.placed = [(.table, "\"t\""), (.column, "\"a\" AS \"b\"")] ∧
    aliases "INSERT INTO \"t\" (\"a\" AS \"b\") VALUES ($0)" = ["b"] ∧ aliases "\"t\"" = [] ∧
    ¬ IsReference "\"a\" AS \"b\"".toList ∧
    (ofCalls .select () calls).build = .ok ⟨"SELECT \"a\" FROM \"t\" ORDER BY * ASC", ⟨[]⟩⟩ ∧
    (Place.column, "*") ∈ (ofCalls .select () calls).placed ∧ ¬ IsReference "*".toList := by
  have halias : ¬ IsReference "\"a\" AS \"b\"".toList := fun h =>
    h.tokens_ne_alias [.name ['a']] ['b'] (by decide +kernel)
  have hstar : ¬ IsReference "*".toList := fun h =>
    h.tokens_ne_star [] (by rw [List.append_nil, tokens_star])
  exact ⟨by decide +kernel, by decide +kernel, by decide +kernel, by decide +kernel, halias,
    by decide +kernel, by decide +kernel, hstar⟩

end Builder

end SqlAssembly

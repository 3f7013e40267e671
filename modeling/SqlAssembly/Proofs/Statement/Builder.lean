import SqlAssembly.Proofs.Statement.Chains

namespace SqlAssembly

/-!
# Statements under construction

All kinds of statements that are put together by calls, and what the calls do to them.  A call on
any of them makes its changes in turn, each of them on the same part.

* `Builder` — the kinds of statements, with their calls and parts;
* `Builder.ext_parts` — a statement is its table, its error and its parts;
* `Builder.Changes` — a change of one part, which depends on nothing else;
* `Builder.after_eq`, `Builder.error?_eq`, `Builder.changes_of_mem` — what every call does;
* `Builder.fault_foldl_after` — the error behind some calls.
-/

/-! ### Statements that are put together by calls -/

/-- The kinds of statements that are put together by calls. -/
inductive Builder where
  | select
  | insert
  | update
  | delete
  | createTable
  deriving DecidableEq, Repr

namespace Builder

/-- A statement that is being put together. -/
abbrev State : Builder → Type
  | .select => Select
  | .insert => Insert
  | .update => Update
  | .delete => Delete
  | .createTable => CreateTable

/-- What a statement is begun with: the name of its table, and its first columns. -/
abbrev Start : Builder → Type
  | .select => Unit
  | .insert | .update | .delete => String
  | .createTable => String × List (String × String)

/-- The calls on a statement. -/
abbrev Call : Builder → Type
  | .select => Select.Call
  | .insert => Insert.Call
  | .update => Update.Call
  | .delete => Delete.Call
  | .createTable => CreateTable.Call

/-- A statement before all calls. -/
def start : (b : Builder) → b.Start → b.State
  | .select, _ => {}
  | .insert, table => .into table
  | .update, table => .of table
  | .delete, table => .fromTable table
  | .createTable, (table, columns) => .of table columns

/-- The statement after a call. -/
def after : (b : Builder) → b.State → b.Call → b.State
  | .select => Select.after
  | .insert => Insert.after
  | .update => Update.after
  | .delete => Delete.after
  | .createTable => CreateTable.after

/-- What a call is about. -/
def kind : (b : Builder) → b.Call → CallKind
  | .select => Select.Call.kind
  | .insert => Insert.Call.kind
  | .update => Update.Call.kind
  | .delete => Delete.Call.kind
  | .createTable => CreateTable.Call.kind

/-- What is wrong with the name of a table.  Nothing is wrong yet with a blank one. -/
def tableError? (table : String) : Option Error :=
  if Text.allBlank table.toList then none else failureOf (QualifiedName.quoteTable table)

/-- What is wrong with the beginning of a statement. -/
def startError? : (b : Builder) → b.Start → Option Error
  | .select, _ => none
  | .insert, table | .update, table | .delete, table => tableError? table
  | .createTable, (table, columns) =>
    (tableError? table).or (columns.findSome? fun c => failureOf (Identifier.quote c.1))

/-- What is wrong with the arguments of a call. -/
def error? : (b : Builder) → b.Call → Option Error
  | .select => Select.Call.error?
  | .insert => Insert.Call.error?
  | .update => Update.Call.error?
  | .delete => Delete.Call.error?
  | .createTable => CreateTable.Call.error?

/-- The changes that a call makes, one for each thing that it adds. -/
def changes : (b : Builder) → b.Call → List (Change b.State)
  | .select => Select.Call.changes
  | .insert => Insert.Call.changes
  | .update => Update.Call.changes
  | .delete => Delete.Call.changes
  | .createTable => CreateTable.Call.changes

/-- The table that was named first, and the error. -/
def target : (b : Builder) → b.State → Target
  | .select, q => { fault := q.fault }
  | .insert, s => s.target
  | .update, s => s.target
  | .delete, s => s.target
  | .createTable, s => s.target

/-- The statement with an error, unless it had one before. -/
def record : (b : Builder) → b.State → Error → b.State
  | .select, q, e => q.record e
  | .insert, s, e => { s with target := s.target.record e }
  | .update, s, e => { s with target := s.target.record e }
  | .delete, s, e => { s with target := s.target.record e }
  | .createTable, s, e => { s with target := s.target.record e }

/-- The part of a statement that calls of a kind are about. -/
def part : (b : Builder) → (k : CallKind) → b.State → k.Part
  | .select, .field, q => q.fields
  | .select, .table, q => q.tables
  | .select, .join, q => q.joins
  | .select, .condition, q => q.clauses
  | .select, .order, q => q.order
  | .select, .limit, q => q.limit
  | .select, .offset, q => q.offset
  | .select, .named, q => q.alias?
  | .select, .options, q => q.options
  | .insert, .value, s => s.values
  | .insert, .options, s => s.options
  | .update, .value, s => s.sets
  | .update, .condition, s => s.clauses
  | .update, .options, s => s.options
  | .delete, .condition, s => s.clauses
  | .delete, .options, s => s.options
  | .createTable, .column, s => s.columns
  | .createTable, .presence, s => s.ifNotExists
  | _, k, _ => k.absent

/-- The statement with something else in the place of one part. -/
def put : (b : Builder) → (k : CallKind) → k.Part → b.State → b.State
  | .select, .field, fields, q => { q with fields }
  | .select, .table, tables, q => { q with tables }
  | .select, .join, joins, q => { q with joins }
  | .select, .condition, clauses, q => { q with clauses }
  | .select, .order, order, q => { q with order }
  | .select, .limit, limit, q => { q with limit }
  | .select, .offset, offset, q => { q with offset }
  | .select, .named, alias?, q => { q with alias? }
  | .select, .options, options, q => { q with options }
  | .insert, .value, values, s => { s with values }
  | .insert, .options, options, s => { s with options }
  | .update, .value, sets, s => { s with sets }
  | .update, .condition, clauses, s => { s with clauses }
  | .update, .options, options, s => { s with options }
  | .delete, .condition, clauses, s => { s with clauses }
  | .delete, .options, options, s => { s with options }
  | .createTable, .column, columns, s => { s with columns }
  | .createTable, .presence, ifNotExists, s => { s with ifNotExists }
  | _, _, _, s => s

/-- The statement. -/
def statement : (b : Builder) → b.State → Statement
  | .select => .select
  | .insert => .insert
  | .update => .update
  | .delete => .delete
  | .createTable => .createTable

/-- The statement after some calls. -/
def ofCalls (b : Builder) (x : b.Start) (calls : List b.Call) : Statement :=
  b.statement (calls.foldl b.after (b.start x))

/-! ### Parts -/

variable {b : Builder} {k k' : CallKind}

/-- A part that is put in changes neither table nor error. -/
theorem target_put (v : k.Part) (s : b.State) : b.target (b.put k v s) = b.target s := by
  cases b <;> cases k <;> rfl

/-- What was put in is there, whatever the statement was. -/
theorem part_put (v : k.Part) (s s' : b.State) :
    b.part k (b.put k v s) = b.part k (b.put k v s') := by
  cases b <;> cases k <;> rfl

/-- The other parts stay as they are. -/
theorem part_put_of_ne (h : k ≠ k') (v : k.Part) (s : b.State) :
    b.part k' (b.put k v s) = b.part k' s := by
  -- most kinds of statements have no such part, so nothing was put in
  cases b <;> cases k <;> first | rfl | (cases k' <;> first | rfl | exact absurd rfl h)

theorem target_record (s : b.State) (e : Error) :
    b.target (b.record s e) = (b.target s).record e := by
  cases b <;> rfl

theorem part_record (s : b.State) (e : Error) : b.part k (b.record s e) = b.part k s := by
  cases b <;> cases k <;> rfl

/-- The table, the error and the parts are all that there is. -/
theorem ext_parts {s s' : b.State} (htarget : b.target s = b.target s')
    (hparts : ∀ k, b.part k s = b.part k s') : s = s' := by
  -- every field of a statement is one of its parts, or its target
  cases b with
  | select =>
    obtain ⟨fields, tables, joins, clauses, order, limit, offset, alias?, options, fault⟩ := s
    obtain rfl : fields = _ := hparts .field
    obtain rfl : tables = _ := hparts .table
    obtain rfl : joins = _ := hparts .join
    obtain rfl : clauses = _ := hparts .condition
    obtain rfl : order = _ := hparts .order
    obtain rfl : limit = _ := hparts .limit
    obtain rfl : offset = _ := hparts .offset
    obtain rfl : alias? = _ := hparts .named
    obtain rfl : options = _ := hparts .options
    obtain rfl : fault = _ := congrArg Target.fault htarget
    cases s'
    rfl
  | insert =>
    obtain ⟨target, values, options⟩ := s
    obtain rfl : target = _ := htarget
    obtain rfl : values = _ := hparts .value
    obtain rfl : options = _ := hparts .options
    rfl
  | update =>
    obtain ⟨target, sets, clauses, options⟩ := s
    obtain rfl : target = _ := htarget
    obtain rfl : sets = _ := hparts .value
    obtain rfl : clauses = _ := hparts .condition
    obtain rfl : options = _ := hparts .options
    rfl
  | delete =>
    obtain ⟨target, clauses, options⟩ := s
    obtain rfl : target = _ := htarget
    obtain rfl : clauses = _ := hparts .condition
    obtain rfl : options = _ := hparts .options
    rfl
  | createTable =>
    obtain ⟨target, columns, ifNotExists⟩ := s
    obtain rfl : target = _ := htarget
    obtain rfl : columns = _ := hparts .column
    obtain rfl : ifNotExists = _ := hparts .presence
    rfl

/-! ### What every call does -/

/-- A change of one part, which depends on that part only, and on nothing if it is overwritten. -/
def Changes (b : Builder) (k : CallKind) (f : b.State → b.State) : Prop :=
  ∃ g : k.Part → k.Part, (k.overwrites → ∀ v w, g v = g w) ∧
    ∀ s, f s = b.put k (g (b.part k s)) s

namespace Changes

variable {f : b.State → b.State}

/-- A change of a part changes neither table nor error. -/
theorem target (h : b.Changes k f) (s : b.State) : b.target (f s) = b.target s := by
  obtain ⟨g, -, hf⟩ := h
  rw [hf, target_put]

/-- A change of a part leaves the others as they are. -/
theorem other (h : b.Changes k f) (hk : k ≠ k') (s : b.State) :
    b.part k' (f s) = b.part k' s := by
  obtain ⟨g, -, hf⟩ := h
  rw [hf, part_put_of_ne hk]

/-- What becomes of a part depends on that part alone. -/
theorem own (h : b.Changes k f) {s s' : b.State} (hs : b.part k s = b.part k s') :
    b.part k (f s) = b.part k (f s') := by
  obtain ⟨g, -, hf⟩ := h
  rw [hf, hf, hs]
  exact part_put _ s s'

/-- What becomes of a part that is overwritten depends on nothing. -/
theorem overwritten (h : b.Changes k f) (hk : k.overwrites) (s s' : b.State) :
    b.part k (f s) = b.part k (f s') := by
  obtain ⟨g, hg, hf⟩ := h
  rw [hf, hf, hg hk (b.part k s) (b.part k s')]
  exact part_put _ s s'

end Changes

/-- What was checked is put in. -/
theorem Changes.of_map {α : Type} {x : Except Error α} {change : α → b.State → b.State}
    {f : b.State → b.State} (hf : (.ok f : Change b.State) ∈ [x.map change])
    (h : ∀ a, b.Changes k (change a)) : b.Changes k f := by
  obtain ⟨a, -, rfl⟩ := map_eq_ok.mp (List.mem_singleton.mp hf).symm
  exact h a

/-- The only change of a call. -/
theorem Changes.of_singleton {f g : b.State → b.State}
    (hf : (.ok f : Change b.State) ∈ [.ok g]) (h : b.Changes k g) : b.Changes k f := by
  obtain rfl := Except.ok.inj (List.mem_singleton.mp hf)
  exact h

end Builder

namespace Select

/-- What is added to a query is checked, and then changes it or is recorded as an error. -/
theorem add_eq {α : Type} {q : Select} {part : Except Error α} {put : α → Select}
    {change : α → Select → Select} (h : ∀ a, put a = change a q) :
    q.add part put = Change.apply record q (part.map change) := by
  cases part with
  | ok a => exact h a
  | error e => rfl

/-- A call on a query makes its changes in turn. -/
theorem after_eq (q : Select) (c : Call) :
    q.after c = c.changes.foldl (Change.apply record) q := by
  cases c with
  | field spec => exact add_eq fun _ => rfl
  | fields specs =>
    -- several entries are added one by one
    have hfield : field = fun q spec => Change.apply record q (Call.fieldChange spec) := by
      funext q spec
      exact add_eq fun _ => rfl
    show specs.foldl field q = (specs.map Call.fieldChange).foldl (Change.apply record) q
    rw [List.foldl_map, hfield]
  | table expr => exact add_eq fun _ => rfl
  | join kind expr left right => exact add_eq fun _ => rfl
  | filters fs => exact add_eq fun _ => rfl
  | orderBy column direction => exact add_eq fun _ => rfl
  | named name => exact add_eq fun _ => rfl
  | condition | limit | offset | options => rfl

/-- Of a join, the table is looked at first, then the columns from left to right. -/
theorem failureOf_joinOf (kind : JoinKind) (table left right : String) :
    failureOf (joinOf kind table left right) =
      (failureOf (QualifiedName.quoteTable table)).or
        ((failureOf (quoteColumn left)).or (failureOf (quoteColumn right))) := by
  refine failureOf_bind fun table => failureOf_bind fun left => ?_
  -- where all three are in order there is nothing left to fail
  have hpure : ∀ right, failureOf (pure ⟨kind, table, left, right⟩ : Except Error Join) = none :=
    fun _ => rfl
  exact (failureOf_bind hpure).trans Option.or_none

/-- What is wrong with a call on a query is what is wrong with its first bad change. -/
theorem Call.error?_eq (c : Call) : c.error? = c.changes.findSome? failureOf := by
  cases c with
  | field spec =>
    rw [changes, Change.findSome?_singleton, fieldChange, failureOf_map, FieldSpec.failureOf_field]
    rfl
  | fields specs =>
    have hfield : failureOf ∘ fieldChange = FieldSpec.error? := by
      funext spec
      exact (failureOf_map _ _).trans spec.failureOf_field
    rw [changes, List.findSome?_map, hfield]
    rfl
  | table expr => rw [changes, Change.findSome?_singleton, failureOf_map, error?]
  | join kind expr left right =>
    rw [changes, Change.findSome?_singleton, failureOf_map, failureOf_joinOf, error?]
  | filters fs =>
    rw [changes, Change.findSome?_singleton, failureOf_map, Filter.failureOf_ofFilters, error?]
  | orderBy column direction => rw [changes, Change.findSome?_singleton, failureOf_map, error?]
  | named name => rw [changes, Change.findSome?_singleton, failureOf_map, error?]
  | condition | limit | offset | options => rfl

/-- A call on a query changes the part that it is about. -/
theorem Call.changes_of_mem {c : Call} {f : Select → Select} (hf : .ok f ∈ c.changes) :
    Builder.Changes .select c.kind f := by
  -- entries and clauses are put behind those that are there
  have hfield : ∀ a : Field, Builder.Changes .select .field
      fun q => { q with fields := q.fields ++ [a] } :=
    fun a => ⟨fun fields => fields ++ [a], nofun, fun _ => rfl⟩
  have hclause : ∀ w : WhereClause, Builder.Changes .select .condition
      fun q => { q with clauses := q.clauses ++ [w] } :=
    fun w => ⟨fun clauses => clauses ++ [w], nofun, fun _ => rfl⟩
  cases c with
  | field spec => exact .of_map hf hfield
  | fields specs =>
    obtain ⟨spec, -, hspec⟩ := List.mem_map.mp hf
    obtain ⟨a, -, rfl⟩ := map_eq_ok.mp hspec
    exact hfield a
  | table expr =>
    exact .of_map (k := .table) hf fun t => ⟨fun tables => tables ++ [t], nofun, fun _ => rfl⟩
  | join kind expr left right =>
    exact .of_map (k := .join) hf fun j => ⟨fun joins => joins ++ [j], nofun, fun _ => rfl⟩
  | filters fs => exact .of_map hf hclause
  | condition c => exact .of_singleton hf (hclause ⟨c, []⟩)
  | orderBy column direction =>
    exact .of_map (k := .order) hf fun c =>
      ⟨fun order => order ++ [(c, direction)], nofun, fun _ => rfl⟩
  | limit n => exact .of_singleton hf ⟨fun _ => some n, fun _ _ _ => rfl, fun _ => rfl⟩
  | offset n => exact .of_singleton hf ⟨fun _ => some n, fun _ _ _ => rfl, fun _ => rfl⟩
  | named name => exact .of_map hf fun a => ⟨fun _ => some a, fun _ _ _ => rfl, fun _ => rfl⟩
  | options o => exact .of_singleton hf ⟨fun _ => o, fun _ _ _ => rfl, fun _ => rfl⟩

end Select

namespace Insert

/-- A value is one change of an INSERT. -/
theorem value_eq (s : Insert) (v : String × Value) :
    s.value v.1 v.2 = Change.apply (Builder.record .insert) s (Call.valueChange v) := by
  unfold value Call.valueChange
  cases quoteColumn v.1 <;> rfl

/-- A call on an INSERT makes its changes in turn. -/
theorem after_eq (s : Insert) (c : Call) :
    s.after c = c.changes.foldl (Change.apply (Builder.record .insert)) s := by
  cases c with
  | value column v => exact value_eq s (column, v)
  | values vs =>
    show vs.foldl (fun s v => s.value v.1 v.2) s = (vs.map Call.valueChange).foldl _ s
    rw [List.foldl_map]
    exact congrFun (congrArg (fun step => vs.foldl step) (funext₂ value_eq)) s
  | options o => rfl

theorem Call.error?_eq (c : Call) : c.error? = c.changes.findSome? failureOf := by
  cases c with
  | value column v =>
    rw [changes, Change.findSome?_singleton, valueChange, failureOf_map, error?]
  | values vs =>
    have hvalue : failureOf ∘ valueChange = fun v => failureOf (quoteColumn v.1) :=
      funext fun v => failureOf_map _ _
    rw [changes, List.findSome?_map, hvalue, error?]
  | options o => rfl

theorem Call.changes_of_mem {c : Call} {f : Insert → Insert} (hf : .ok f ∈ c.changes) :
    Builder.Changes .insert c.kind f := by
  -- a value is put behind those that are there, checked or in a list
  have hvalue : ∀ v : String × Value, Builder.Changes .insert .value
      fun s => { s with values := s.values ++ [v] } :=
    fun v => ⟨fun values => values ++ [v], nofun, fun _ => rfl⟩
  cases c with
  | value column v => exact .of_map hf fun c => hvalue (c, v)
  | values vs =>
    obtain ⟨v, -, hv⟩ := List.mem_map.mp hf
    obtain ⟨c, -, rfl⟩ := map_eq_ok.mp hv
    exact hvalue (c, v.2)
  | options o => exact .of_singleton hf ⟨fun _ => o, fun _ _ _ => rfl, fun _ => rfl⟩

end Insert

namespace Update

/-- A new value is one change of an UPDATE. -/
theorem set_eq (s : Update) (v : String × Value) :
    s.set v.1 v.2 = Change.apply (Builder.record .update) s (Call.setChange v) := by
  unfold set Call.setChange
  cases quoteColumn v.1 <;> rfl

theorem after_eq (s : Update) (c : Call) :
    s.after c = c.changes.foldl (Change.apply (Builder.record .update)) s := by
  cases c with
  | set column v => exact set_eq s (column, v)
  | setAll vs =>
    show vs.foldl (fun s v => s.set v.1 v.2) s = (vs.map Call.setChange).foldl _ s
    rw [List.foldl_map]
    exact congrFun (congrArg (fun step => vs.foldl step) (funext₂ set_eq)) s
  | filters fs =>
    show s.filterAll fs = Change.apply _ s ((WhereClause.ofFilters fs).map _)
    unfold filterAll
    cases WhereClause.ofFilters fs <;> rfl
  | options o => rfl

theorem Call.error?_eq (c : Call) : c.error? = c.changes.findSome? failureOf := by
  cases c with
  | set column v =>
    rw [changes, Change.findSome?_singleton, setChange, failureOf_map, error?]
  | setAll vs =>
    -- of a list of new values the first bad column counts
    have hset : failureOf ∘ setChange = fun v => failureOf (quoteColumn v.1) :=
      funext fun v => failureOf_map _ _
    rw [changes, List.findSome?_map, hset, error?]
  | filters fs =>
    rw [changes, Change.findSome?_singleton, failureOf_map, Filter.failureOf_ofFilters, error?]
  | options o => rfl

theorem Call.changes_of_mem {c : Call} {f : Update → Update} (hf : .ok f ∈ c.changes) :
    Builder.Changes .update c.kind f := by
  have hset : ∀ v : String × Value, Builder.Changes .update .value
      fun s => { s with sets := s.sets ++ [v] } :=
    fun v => ⟨fun sets => sets ++ [v], nofun, fun _ => rfl⟩
  cases c with
  | set column v => exact .of_map hf fun c => hset (c, v)
  | setAll vs =>
    obtain ⟨v, -, hv⟩ := List.mem_map.mp hf
    obtain ⟨c, -, rfl⟩ := map_eq_ok.mp hv
    exact hset (c, v.2)
  | filters fs =>
    exact .of_map (k := .condition) hf fun w =>
      ⟨fun clauses => clauses ++ [w], nofun, fun _ => rfl⟩
  | options o => exact .of_singleton hf ⟨fun _ => o, fun _ _ _ => rfl, fun _ => rfl⟩

end Update

namespace Delete

theorem after_eq (s : Delete) (c : Call) :
    s.after c = c.changes.foldl (Change.apply (Builder.record .delete)) s := by
  cases c with
  | filters fs =>
    show s.filterAll fs = Change.apply _ s ((WhereClause.ofFilters fs).map _)
    unfold filterAll
    cases WhereClause.ofFilters fs <;> rfl
  | options o => rfl

theorem Call.error?_eq (c : Call) : c.error? = c.changes.findSome? failureOf := by
  cases c with
  | filters fs =>
    rw [changes, Change.findSome?_singleton, failureOf_map, Filter.failureOf_ofFilters, error?]
  | options o => rfl

theorem Call.changes_of_mem {c : Call} {f : Delete → Delete} (hf : .ok f ∈ c.changes) :
    Builder.Changes .delete c.kind f := by
  cases c with
  | filters fs =>
    exact .of_map (k := .condition) hf fun w =>
      ⟨fun clauses => clauses ++ [w], nofun, fun _ => rfl⟩
  | options o => exact .of_singleton hf ⟨fun _ => o, fun _ _ _ => rfl, fun _ => rfl⟩

end Delete

namespace CreateTable

theorem after_eq (s : CreateTable) (c : Call) :
    s.after c = c.changes.foldl (Change.apply (Builder.record .createTable)) s := by
  cases c with
  | column name type =>
    show s.column name type = Change.apply _ s ((Identifier.quote name).map _)
    unfold column
    cases Identifier.quote name <;> rfl
  | unlessThere => rfl

theorem Call.error?_eq (c : Call) : c.error? = c.changes.findSome? failureOf := by
  cases c with
  | column name type => rw [changes, Change.findSome?_singleton, failureOf_map, error?]
  | unlessThere => rfl

theorem Call.changes_of_mem {c : Call} {f : CreateTable → CreateTable} (hf : .ok f ∈ c.changes) :
    Builder.Changes .createTable c.kind f := by
  cases c with
  | column name type =>
    exact .of_map (k := .column) hf fun c =>
      ⟨fun columns => columns ++ [(c, type)], nofun, fun _ => rfl⟩
  | unlessThere => exact .of_singleton hf ⟨fun _ => true, fun _ _ _ => rfl, fun _ => rfl⟩

end CreateTable

/-! ### Calls on any statement -/

namespace Builder

variable {b : Builder} {k : CallKind}

/-- A call on any statement makes its changes in turn. -/
theorem after_eq (s : b.State) (c : b.Call) :
    b.after s c = (b.changes c).foldl (Change.apply b.record) s := by
  cases b with
  | select => exact Select.after_eq s c
  | insert => exact Insert.after_eq s c
  | update => exact Update.after_eq s c
  | delete => exact Delete.after_eq s c
  | createTable => exact CreateTable.after_eq s c

/-- What is wrong with a call is what is wrong with its first bad change. -/
theorem error?_eq (c : b.Call) : b.error? c = (b.changes c).findSome? failureOf := by
  cases b with
  | select => exact Select.Call.error?_eq c
  | insert => exact Insert.Call.error?_eq c
  | update => exact Update.Call.error?_eq c
  | delete => exact Delete.Call.error?_eq c
  | createTable => exact CreateTable.Call.error?_eq c

/-- A call changes the part that it is about, and nothing else. -/
theorem changes_of_mem {c : b.Call} {f : b.State → b.State} (hf : .ok f ∈ b.changes c) :
    b.Changes (b.kind c) f := by
  cases b with
  | select => exact Select.Call.changes_of_mem hf
  | insert => exact Insert.Call.changes_of_mem hf
  | update => exact Update.Call.changes_of_mem hf
  | delete => exact Delete.Call.changes_of_mem hf
  | createTable => exact CreateTable.Call.changes_of_mem hf

/-- An error is kept unless there was one before. -/
theorem fault_record (s : b.State) (e : Error) :
    (b.target (b.record s e)).fault = (b.target s).fault.or (some e) := by
  rw [target_record, Target.record]
  cases (b.target s).fault <;> rfl

/-- Behind a call the error is the one before, or else what is wrong with the call. -/
theorem fault_after (s : b.State) (c : b.Call) :
    (b.target (b.after s c)).fault = (b.target s).fault.or (b.error? c) := by
  rw [after_eq, error?_eq]
  refine Change.fault_foldl_apply (fun s => (b.target s).fault) fault_record ?_ s
  intro f hf s
  rw [(changes_of_mem hf).target s]

/-- Behind calls the error is the one before, or else what is wrong with the first call that has
something wrong with it. -/
theorem fault_foldl_after (s : b.State) (calls : List b.Call) :
    (b.target (calls.foldl b.after s)).fault
      = (b.target s).fault.or (calls.findSome? b.error?) := by
  induction calls generalizing s with
  | nil => exact Option.or_none.symm
  | cons c rest ih =>
    rw [List.foldl_cons, ih, fault_after, Option.or_assoc, List.findSome?_cons]
    cases b.error? c <;> rfl

end Builder

end SqlAssembly

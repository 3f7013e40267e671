import SqlAssembly.Proofs.Filter.Classify
import SqlAssembly.Proofs.Query.Placed
import SqlAssembly.Proofs.Query.Predicates

namespace SqlAssembly

/-!
# What is known of the texts in a query

What a text stands for decides what is known of it: a column is the quoted form of an expression
that a caller wrote, and a filter becomes a condition on the quoted forms of its own columns, in
order.

* `Place.Accepts`, `AllAccepted` — what is known of a text by its place;
* `SelfContained` — a text that leaves no quote open and awaits no alias;
* `Filter.namedColumns`, `Filter.quotedAs_of_classify` — the columns of a filter and of its
  condition;
* `Condition.queries`, `Condition.allAccepted` — a condition from its columns and its subqueries.
-/

open Grammar Sql

/-! ### Texts by their place -/

/-- What is known of a text by its place. -/
def Place.Accepts : Place → String → Prop
  | .entry, sql => Generates .expression sql.toList ∨
      ∃ name, IsName name ∧ sql.toList = " AS ".toList ++ name
  | .table, sql => IsTable sql.toList
  | .column, sql => ∃ expr, QuotedAs expr sql
  | .name, sql => IsName sql.toList
  | .fragment, _ => True

/-- Each of the texts is as its place says. -/
def AllAccepted (placed : List Placed) : Prop := ∀ p ∈ placed, p.1.Accepts p.2

theorem allAccepted_nil : AllAccepted [] := List.forall_mem_nil _

theorem allAccepted_append {placed others : List Placed} :
    AllAccepted (placed ++ others) ↔ AllAccepted placed ∧ AllAccepted others :=
  List.forall_mem_append

/-- Texts at places of one kind are accepted one by one. -/
theorem allAccepted_map {α : Type} {place : Place} {text : α → String} {xs : List α} :
    AllAccepted (xs.map fun x => (place, text x)) ↔ ∀ x ∈ xs, place.Accepts (text x) :=
  List.forall_mem_map

/-- No quote is left open, and no alias is awaited behind the text. -/
structure SelfContained (sql : String) : Prop where
  closed : Closed sql.toList
  settled : Settled (tokens sql.toList)

/-- A text of the grammar is self-contained. -/
theorem selfContained_of_generates {sql : String} {part : Part} (h : Generates part sql.toList) :
    SelfContained sql :=
  ⟨(harmless_of_generates h).closed, settled_of_generates h⟩

/-- The quoted form of an expression is one of the grammar. -/
theorem generates_of_quotedAs {expr sql : String} (h : QuotedAs expr sql) :
    Generates .expression sql.toList :=
  generates_of_quoteColumn h.1

/-- Every text but a fragment is self-contained by its place. -/
theorem Place.Accepts.selfContained {place : Place} {sql : String} (h : place.Accepts sql)
    (hfragment : place = .fragment → SelfContained sql) : SelfContained sql := by
  cases place with
  | entry =>
    rcases h with h | ⟨name, hname, hsql⟩
    · exact selfContained_of_generates h
    -- the name of a subquery, with AS in front of it
    · have halias : IsAlias sql.toList := .inr ⟨name, hname, hsql⟩
      exact ⟨(harmless_of_isAlias halias).closed, settled_of_isAlias halias⟩
  | table => exact ⟨(harmless_of_isTable h).closed, settled_of_isTable h⟩
  | column =>
    obtain ⟨expr, h⟩ := h
    exact selfContained_of_generates (generates_of_quotedAs h)
  | name =>
    obtain ⟨content, hsql⟩ := id h
    refine ⟨(harmless_of_isName h).closed, ?_⟩
    rw [hsql, tokens_name]
    exact settled_concat [] rfl
  | fragment => exact hfragment rfl

/-! ### The columns of a filter -/

/-- The name of a column that a subject may be. -/
def Operand.text? : Operand → Option String
  | .value (.text text) => some text
  | _ => none

/-- The column that a value may be compared with. -/
def Operand.column? : Operand → Option String
  | .column expr => some expr
  | _ => none

mutual

/-- The column expressions in a filter, from left to right. -/
def Filter.namedColumns : Filter → List String
  | .test subject _ operand => subject.text?.toList ++ (operand.bind Operand.column?).toList
  | .group _ filters => Filter.allNamedColumns filters
  | .raw _ => []

/-- The column expressions in filters, from left to right. -/
def Filter.allNamedColumns : List Filter → List String
  | [] => []
  | f :: rest => f.namedColumns ++ Filter.allNamedColumns rest

end

/-- A test becomes a condition on the quoted forms of its columns. -/
theorem Test.Fits.quotedAs {subject : Operand} {op : String} {operand : Option Operand}
    {c : Condition} (h : Test.Fits ⟨subject, op, operand⟩ c) :
    List.Forall₂ QuotedAs (Filter.test subject op operand).namedColumns c.testedColumns := by
  cases h with
  | column hnames _ htests =>
    obtain ⟨text, rfl, -, hfield⟩ := hnames
    have hquoted := quotedAs_of_quoteColumn hfield
    cases htests with
    | columns _ _ hcolumn => exact .cons hquoted (.cons (quotedAs_of_quoteColumn hcolumn) .nil)
    | nullCheck | inList | between | pattern | compare => exact .cons hquoted .nil
  | subquery => exact .nil

mutual

/-- A filter becomes a condition on the quoted forms of its columns, in order. -/
theorem Filter.quotedAs_of_classify : ∀ (f : Filter) {c : Condition},
    Condition.classify f = .ok c → List.Forall₂ QuotedAs f.namedColumns c.testedColumns
  | .test subject op operand, c, h => (Condition.classify_test_eq_ok_iff.mp h).quotedAs
  | .group combinator filters, c, h => by
    rw [Condition.classify] at h
    obtain ⟨conditions, hconditions, h⟩ := bind_eq_ok.mp h
    cases h
    exact Filter.quotedAs_of_classifyAll filters hconditions
  | .raw sql, c, h => by
    rw [Condition.classify] at h
    cases h
    exact .nil

/-- The same for filters, from left to right. -/
theorem Filter.quotedAs_of_classifyAll : ∀ (fs : List Filter) {cs : List Condition},
    Condition.classifyAll fs = .ok cs →
      List.Forall₂ QuotedAs (Filter.allNamedColumns fs) (Condition.allTestedColumns cs)
  | [], cs, h => by
    rw [Condition.classifyAll] at h
    cases h
    exact .nil
  | f :: rest, cs, h => by
    rw [Condition.classifyAll] at h
    obtain ⟨c, hc, h⟩ := bind_eq_ok.mp h
    obtain ⟨others, hothers, h⟩ := bind_eq_ok.mp h
    cases h
    rw [Filter.allNamedColumns, Condition.allTestedColumns]
    exact List.rel_append (Filter.quotedAs_of_classify f hc)
      (Filter.quotedAs_of_classifyAll rest hothers)

end

/-! ### The subqueries of a filter -/

/-- The query that an operand may be. -/
def Operand.query? : Operand → Option Select
  | .select query => some query
  | _ => none

mutual

/-- The queries that are compared in a filter, from left to right. -/
def Filter.queries : Filter → List Select
  | .test subject _ _ => subject.query?.toList
  | .group _ filters => Filter.allQueries filters
  | .raw _ => []

/-- The queries that are compared in filters, from left to right. -/
def Filter.allQueries : List Filter → List Select
  | [] => []
  | f :: rest => f.queries ++ Filter.allQueries rest

end

mutual

/-- The queries that are compared in a condition, from left to right. -/
def Condition.queries : Condition → List Select
  | .subquery query _ _ => [query]
  | .group _ conditions => Condition.allQueries conditions
  | .compare _ _ _ | .nullCheck _ _ | .inList _ _ _ | .between _ _ _ _ | .pattern _ _ _
  | .columns _ _ _ | .raw _ => []

/-- The queries that are compared in conditions, from left to right. -/
def Condition.allQueries : List Condition → List Select
  | [] => []
  | c :: rest => c.queries ++ Condition.allQueries rest

end

mutual

/-- A condition compares the queries that the filter compares. -/
theorem Filter.queries_of_classify : ∀ (f : Filter) {c : Condition},
    Condition.classify f = .ok c → ∀ q ∈ c.queries, q ∈ f.queries
  | .test subject op operand, c, h => by
    cases Condition.classify_test_eq_ok_iff.mp h with
    | column _ _ htests => cases htests <;> nofun
    | subquery => exact fun q hq => hq
  | .group combinator filters, c, h => by
    rw [Condition.classify] at h
    obtain ⟨conditions, hconditions, h⟩ := bind_eq_ok.mp h
    cases h
    exact Filter.allQueries_of_classifyAll filters hconditions
  | .raw sql, c, h => by
    rw [Condition.classify] at h
    cases h
    nofun

/-- The same for filters, from left to right. -/
theorem Filter.allQueries_of_classifyAll : ∀ (fs : List Filter) {cs : List Condition},
    Condition.classifyAll fs = .ok cs →
      ∀ q ∈ Condition.allQueries cs, q ∈ Filter.allQueries fs
  | [], cs, h => by
    rw [Condition.classifyAll] at h
    cases h
    nofun
  | f :: rest, cs, h => by
    rw [Condition.classifyAll] at h
    obtain ⟨c, hc, h⟩ := bind_eq_ok.mp h
    obtain ⟨others, hothers, h⟩ := bind_eq_ok.mp h
    cases h
    intro q hq
    rw [Filter.allQueries, List.mem_append]
    rcases List.mem_append.mp hq with hq | hq
    · exact .inl (Filter.queries_of_classify f hc q hq)
    · exact .inr (Filter.allQueries_of_classifyAll rest hothers q hq)

end

/-! ### Whole conditions -/

mutual

/-- What is placed in a condition is its own columns, what is placed in the queries that it
compares, and fragments. -/
theorem Condition.allAccepted : ∀ (c : Condition),
    (∀ column ∈ c.testedColumns, Place.column.Accepts column) →
    (∀ q ∈ c.queries, AllAccepted q.placed) → AllAccepted c.placed
  | .compare _ _ _, hcolumns, _ | .nullCheck _ _, hcolumns, _ | .inList _ _ _, hcolumns, _
  | .between _ _ _ _, hcolumns, _ | .pattern _ _ _, hcolumns, _ => by
    rw [placed]
    exact List.forall_mem_singleton.mpr (hcolumns _ (List.mem_singleton_self _))
  | .columns field _ column, hcolumns, _ => by
    rw [testedColumns, List.forall_mem_cons, List.forall_mem_singleton] at hcolumns
    rw [placed]
    exact List.forall_mem_cons.mpr ⟨hcolumns.1, List.forall_mem_singleton.mpr hcolumns.2⟩
  | .subquery query _ _, _, hqueries => by
    rw [placed]
    exact hqueries query (List.mem_singleton_self query)
  | .group _ conditions, hcolumns, hqueries => by
    rw [placed]
    exact Condition.allAccepted_allPlaced conditions hcolumns hqueries
  | .raw sql, _, _ => by
    rw [placed]
    exact List.forall_mem_singleton.mpr trivial

/-- The same for conditions, from left to right. -/
theorem Condition.allAccepted_allPlaced : ∀ (cs : List Condition),
    (∀ column ∈ allTestedColumns cs, Place.column.Accepts column) →
    (∀ q ∈ allQueries cs, AllAccepted q.placed) → AllAccepted (allPlaced cs)
  | [], _, _ => allAccepted_nil
  | c :: rest, hcolumns, hqueries => by
    rw [allTestedColumns, List.forall_mem_append] at hcolumns
    rw [allQueries, List.forall_mem_append] at hqueries
    rw [allPlaced, allAccepted_append]
    exact ⟨Condition.allAccepted c hcolumns.1 hqueries.1,
      Condition.allAccepted_allPlaced rest hcolumns.2 hqueries.2⟩

end

/-- Quoted forms may stand where a column does. -/
theorem accepts_of_quotedAs {exprs columns : List String}
    (h : List.Forall₂ QuotedAs exprs columns) :
    ∀ column ∈ columns, Place.column.Accepts column := by
  induction h with
  | nil => nofun
  | cons hfirst _ ih => exact List.forall_mem_cons.mpr ⟨⟨_, hfirst⟩, ih⟩

end SqlAssembly

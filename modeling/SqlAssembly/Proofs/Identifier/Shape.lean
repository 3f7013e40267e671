import SqlAssembly.Proofs.ColumnExpr.Spelling

namespace SqlAssembly

/-!
# The shapes of columns and tables

Columns and tables have a pattern each, with groups for the names and for the alias.  A group may be
absent, blanks may stand in many places, and the word in front of an alias may be an alias itself.
Still a text matches a pattern in one way only: the groups that are there and the alias are always
the same.  So the shorter pattern matches exactly where the longer one does without its last group.

* `PointGroup`, `ColumnShape`, `TableShape` — the patterns, and what their groups hold;
* `columnShape_iff`, `tableShape_iff` — the segments of such a text;
* `QualifiedName.columnShape_unique` — a text matches in one way;
* `QualifiedName.quoteColumn_of_parse_table` — no table is a star or a call;
* `QualifiedName.table_iff_short_column` — tables are the columns of one or two parts.
-/

namespace QualifiedName

/-! ### The patterns -/

/-- A group that may be absent: a point with a segment. -/
inductive PointGroup : Option Segment → List Char → Prop
  | absent : PointGroup none []
  | present {segment : Segment} : segment.Proper → PointGroup (some segment) ('.' :: segment.text)

/-- The pattern of a column: a segment, two more groups and an alias, between blanks.  The segments
are those of the groups that are there. -/
inductive ColumnShape : List Char → List Segment → Option Segment → Prop
  | groups {first : Segment} {second? third? alias? : Option Segment}
    {lead second third tail trail : List Char} : Text.allBlank lead = true → first.Proper →
    PointGroup second? second → PointGroup third? third → Segment.AliasText alias? tail →
    Text.allBlank trail = true →
    ColumnShape (lead ++ (first.text ++ (second ++ (third ++ (tail ++ trail)))))
      (first :: (second?.toList ++ third?.toList)) alias?

/-- The pattern of a table: a segment, one more group and an alias, between blanks. -/
inductive TableShape : List Char → List Segment → Option Segment → Prop
  | groups {first : Segment} {second? alias? : Option Segment}
    {lead second tail trail : List Char} : Text.allBlank lead = true → first.Proper →
    PointGroup second? second → Segment.AliasText alias? tail → Text.allBlank trail = true →
    TableShape (lead ++ (first.text ++ (second ++ (tail ++ trail))))
      (first :: second?.toList) alias?

/-! ### What they match -/

/-- Each segment behind the first one has a point in front of it. -/
theorem intercalate_path (first : Segment) (rest : List Segment) :
    ['.'].intercalate ((first :: rest).map Segment.text)
      = first.text ++ rest.flatMap fun segment => '.' :: segment.text := by
  induction rest generalizing first with
  | nil => simp
  | cons second rest ih =>
    have hrest := ih second
    rw [List.map_cons] at hrest
    rw [List.map_cons, List.map_cons, List.intercalate_cons_cons, hrest, List.flatMap_cons]
    simp

namespace PointGroup

variable {group : Option Segment} {s : List Char}

/-- The text of a group is a point and the segment, or nothing. -/
theorem eq_flatMap (h : PointGroup group s) :
    s = group.toList.flatMap fun segment => '.' :: segment.text := by
  cases h <;> simp

/-- The segment of a group is one that may be written. -/
theorem proper (h : PointGroup group s) : ∀ segment ∈ group.toList, segment.Proper := by
  cases h with
  | absent => nofun
  | present hsegment => exact List.forall_mem_singleton.mpr hsegment

/-- Any such segment can be the one of a group. -/
theorem exists_of_proper (h : ∀ segment ∈ group.toList, segment.Proper) :
    ∃ s, PointGroup group s := by
  cases group with
  | none => exact ⟨[], .absent⟩
  | some segment => exact ⟨_, .present (h segment (by simp))⟩

/-- A group holds one segment at most. -/
theorem length_le (group : Option Segment) : group.toList.length ≤ 1 := by
  cases group <;> simp

end PointGroup

variable {s : List Char} {path : List Segment} {alias? : Option Segment}

/-- What matches the pattern of a column is a path of up to three segments and an alias. -/
theorem columnShape_iff : ColumnShape s path alias? ↔ Divided 3 path alias? s := by
  constructor
  · rintro @⟨first, second?, third?, _, lead, second, third, tail, trail, hlead, hfirst, hsecond,
      hthird, htail, htrail⟩
    have hsegments : ∀ segment ∈ first :: (second?.toList ++ third?.toList), segment.Proper := by
      rw [List.forall_mem_cons, List.forall_mem_append]
      exact ⟨hfirst, hsecond.proper, hthird.proper⟩
    have hlength : (first :: (second?.toList ++ third?.toList)).length ≤ 3 := by
      have hsecond := PointGroup.length_le second?
      have hthird := PointGroup.length_le third?
      simp only [List.length_cons, List.length_append]
      omega
    -- the groups that are there give a path of one to three segments
    have hdivided := Divided.segments (List.cons_ne_nil _ _) hlength hsegments htail hlead htrail
    rw [intercalate_path, List.flatMap_append, ← hsecond.eq_flatMap, ← hthird.eq_flatMap]
      at hdivided
    simpa using hdivided
  · rintro @⟨lead, tail, trail, hne, hlen, hpath, htail, hlead, htrail⟩
    -- the second group takes the second segment, the third one what is left
    obtain ⟨first, second?, third?, rfl⟩ : ∃ first, ∃ second? third? : Option Segment,
        path = first :: (second?.toList ++ third?.toList) := by
      match path, hne, hlen with
      | [a], _, _ => exact ⟨a, none, none, rfl⟩
      | [a, b], _, _ => exact ⟨a, some b, none, rfl⟩
      | [a, b, c], _, _ => exact ⟨a, some b, some c, rfl⟩
    rw [List.forall_mem_cons, List.forall_mem_append] at hpath
    obtain ⟨hfirst, hsecondProper, hthirdProper⟩ := hpath
    obtain ⟨second, hsecond⟩ := PointGroup.exists_of_proper hsecondProper
    obtain ⟨third, hthird⟩ := PointGroup.exists_of_proper hthirdProper
    have hshape := ColumnShape.groups hlead hfirst hsecond hthird htail htrail
    rw [intercalate_path, List.flatMap_append, ← hsecond.eq_flatMap, ← hthird.eq_flatMap]
    simpa using hshape

/-- What matches the pattern of a table is a path of up to two segments and an alias. -/
theorem tableShape_iff : TableShape s path alias? ↔ Divided 2 path alias? s := by
  constructor
  · rintro @⟨first, second?, _, lead, second, tail, trail, hlead, hfirst, hsecond, htail, htrail⟩
    have hlength : (first :: second?.toList).length ≤ 2 := by
      have hsecond := PointGroup.length_le second?
      simp only [List.length_cons]
      omega
    have hdivided := Divided.segments (List.cons_ne_nil _ _) hlength
      (List.forall_mem_cons.mpr ⟨hfirst, hsecond.proper⟩) htail hlead htrail
    rw [intercalate_path, ← hsecond.eq_flatMap] at hdivided
    simpa using hdivided
  · rintro @⟨lead, tail, trail, hne, hlen, hpath, htail, hlead, htrail⟩
    obtain ⟨first, second?, rfl⟩ : ∃ first, ∃ second? : Option Segment,
        path = first :: second?.toList := by
      -- the second group is there if the path has two segments
      match path, hne, hlen with
      | [a], _, _ => exact ⟨a, none, rfl⟩
      | [a, b], _, _ => exact ⟨a, some b, rfl⟩
    obtain ⟨hfirst, hsecondProper⟩ := List.forall_mem_cons.mp hpath
    obtain ⟨second, hsecond⟩ := PointGroup.exists_of_proper hsecondProper
    have hshape := TableShape.groups hlead hfirst hsecond htail htrail
    rw [intercalate_path, ← hsecond.eq_flatMap]
    simpa using hshape

/-- A text matches in one way only, for reading it gives the segments and the alias back. -/
theorem columnShape_unique {path' : List Segment} {alias?' : Option Segment}
    (h : ColumnShape s path alias?) (h' : ColumnShape s path' alias?') :
    path' = path ∧ alias?' = alias? := by
  rw [columnShape_iff, ← readParts_eq_some_iff] at h h'
  exact Prod.mk.inj (Option.some.inj (h'.symm.trans h))

/-- A text is a path of up to `m` segments exactly if it is one of up to `n` and has no more. -/
theorem divided_iff_of_le {m n : Nat} (h : m ≤ n) :
    Divided m path alias? s ↔ Divided n path alias? s ∧ path.length ≤ m := by
  constructor
  · rintro ⟨hne, hlen, hpath, htail, hlead, htrail⟩
    exact ⟨.segments hne (Nat.le_trans hlen h) hpath htail hlead htrail, hlen⟩
  · rintro ⟨⟨hne, -, hpath, htail, hlead, htrail⟩, hlen⟩
    exact .segments hne hlen hpath htail hlead htrail

/-! ### Tables as columns -/

/-- What is read as a table is neither a star nor a call, so it is read as a column. -/
theorem quoteColumn_of_parse_table {expr : String} {q : QualifiedName}
    (h : parseTable expr = .ok q) : quoteColumn expr = (parseColumn expr).map sql := by
  obtain ⟨lead, text, trail, hlead, htrail, hexpr, hspells⟩ := exists_spells_of_parse h
  obtain ⟨hstar, hcall⟩ := hspells.not_star_not_call hlead htrail
  rw [← hexpr] at hstar hcall
  rw [quoteColumn, ColumnExpr.parse_column hstar hcall, parseColumn]
  cases parse .column expr.toList <;> rfl

/-- A name has as many parts as its path has segments. -/
theorem length_parts_of_ofSegments {q : QualifiedName} (h : ofSegments path alias? = .ok q) :
    q.parts.length = path.length :=
  Grammar.length_of_mapM (ofSegments_eq_ok_iff.mp h).1

/-- What is read as a table is what is read as a column of at most two parts. -/
theorem parseTable_eq_ok_iff {expr : String} {q : QualifiedName} :
    parseTable expr = .ok q ↔ parseColumn expr = .ok q ∧ q.parts.length ≤ 2 := by
  have hle : NameRole.table.maxParts ≤ NameRole.column.maxParts := by decide
  rw [parseTable, parseColumn, parse_eq_ok_iff, parse_eq_ok_iff]
  constructor
  · rintro ⟨path, alias?, hs, hq⟩
    obtain ⟨hcolumn, hlen⟩ := (divided_iff_of_le hle).mp hs
    exact ⟨⟨path, alias?, hcolumn, hq⟩, by rwa [length_parts_of_ofSegments hq]⟩
  · rintro ⟨⟨path, alias?, hs, hq⟩, hlen⟩
    -- a name has as many parts as its path has segments
    rw [length_parts_of_ofSegments hq] at hlen
    exact ⟨path, alias?, (divided_iff_of_le hle).mpr ⟨hs, hlen⟩, hq⟩

/-- The tables are the columns of one or two parts, with the same name and the same alias, and they
are quoted as such.  Both are read by their patterns: a table matches its own one exactly where it
matches that of columns with no more than two segments, and no text matches in two ways, so the
alias begins at the same place even if it is the word AS itself. -/
theorem table_iff_short_column :
    (∀ expr q, parseTable expr = .ok q ↔ parseColumn expr = .ok q ∧ q.parts.length ≤ 2) ∧
    (∀ expr q, parseTable expr = .ok q →
      quoteTable expr = .ok q.sql ∧ quoteColumn expr = quoteTable expr) ∧
    (∀ s path alias?, TableShape s path alias? ↔ ColumnShape s path alias? ∧ path.length ≤ 2) ∧
    (∀ s path path' alias? alias?', ColumnShape s path alias? → ColumnShape s path' alias?' →
      path' = path ∧ alias?' = alias?) ∧
    (∀ expr q, parseColumn expr = .ok q ↔
      ∃ path alias?, ColumnShape expr.toList path alias? ∧ ofSegments path alias? = .ok q) ∧
    (∀ expr q, parseTable expr = .ok q ↔
      ∃ path alias?, TableShape expr.toList path alias? ∧ ofSegments path alias? = .ok q) := by
  refine ⟨fun expr q => parseTable_eq_ok_iff, fun expr q h => ?_, fun s path alias? => ?_,
    fun s path path' alias? alias?' => columnShape_unique, fun expr q => ?_, fun expr q => ?_⟩
  · have hcolumn := (parseTable_eq_ok_iff.mp h).1
    have hquoted : quoteTable expr = .ok q.sql := by
      rw [quoteTable, h]
      rfl
    rw [quoteColumn_of_parse_table h, hcolumn, hquoted]
    exact ⟨rfl, rfl⟩
  -- both patterns say how the text is divided, with two segments at most or three
  · rw [tableShape_iff, columnShape_iff]
    exact divided_iff_of_le (by decide)
  · rw [parseColumn, parse_eq_ok_iff]
    simp only [columnShape_iff]
    rfl
  · rw [parseTable, parse_eq_ok_iff]
    simp only [tableShape_iff]
    rfl

/-- A table whose name looks like a call and whose alias is the word AS, behind that word and
without it, and a column of three parts. -/
theorem table_iff_short_column_as :
    let q : QualifiedName := ⟨["s", "t (x) AS"], some "AS"⟩
    parseTable " s.\"t (x) AS\"\taS AS\n" = .ok q ∧ parseColumn " s.\"t (x) AS\"\taS AS\n" = .ok q ∧
    quoteColumn "s.\"t (x) AS\" AS" = quoteTable "s.\"t (x) AS\" AS" ∧
    ¬ parseTable "a.b.c AS" = .ok ⟨["a", "b", "c"], some "AS"⟩ := by
  intro q
  obtain ⟨hiff, hquote, -⟩ := table_iff_short_column
  have hword : parseTable " s.\"t (x) AS\"\taS AS\n" = .ok q := by decide +kernel
  have hbare : parseTable "s.\"t (x) AS\" AS" = .ok q := by decide +kernel
  refine ⟨hword, ((hiff _ _).mp hword).1, (hquote _ _ hbare).2, fun hlong => ?_⟩
  exact absurd ((hiff _ _).mp hlong).2 (by decide)

end QualifiedName

end SqlAssembly

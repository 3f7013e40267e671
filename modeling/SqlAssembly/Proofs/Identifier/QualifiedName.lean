import SqlAssembly.Proofs.ColumnExpr.Grammar
import SqlAssembly.Proofs.Identifier.Segment

namespace SqlAssembly.QualifiedName

/-!
# Reading qualified names back

The SQL text of a qualified name is a text of that name: reading it gives the names and the alias
again, so quoting it a second time changes nothing.

* `readPath_segments` — segments with points between them are read one by one;
* `Divided`, `readParts_eq_some_iff` — the texts that are read as a path and an alias;
* `parse_eq_ok_iff` — and those that are read as a name;
* `Admissible`, `admissible_of_parse` — what is known of a name that was read;
* `Spells`, `parse_of_spells` — a name is read however it is written;
* `exists_spells_of_parse` — and nothing else is read as a name;
* `parse_sql_of_admissible`, `parse_sql` — the SQL text is read as the name again;
* `reading_undoes_printing` — and of no other names.
-/

/-- The SQL text as quoted names with points between them, and an alias. -/
theorem toList_sql (q : QualifiedName) :
    q.sql.toList = ['.'].intercalate ((q.parts.map String.toList).map (Text.quoted '"'))
      ++ (aliasSql q.alias?).toList := by
  rw [sql, String.toList_append, String.toList_intercalate, List.map_map, List.map_map]
  congr 3
  funext part
  simp [Identifier.quoted]

/-! ### Paths -/

section

variable {path : List Segment} (hne : path ≠ []) (hpath : ∀ segment ∈ path, segment.Proper)
include hne hpath

/-- A path begins with a quote or a letter. -/
theorem exists_head_path :
    ∃ c cs, ['.'].intercalate (path.map Segment.text) = c :: cs ∧
      (c = '"' ∨ Segment.isHead c = true) := by
  cases path with
  | nil => exact absurd rfl hne
  | cons segment path =>
    rw [List.forall_mem_cons] at hpath
    obtain ⟨c, cs, hcs, hc⟩ := hpath.1.exists_head
    cases path with
    | nil => exact ⟨c, cs, by simpa using hcs, hc⟩
    | cons other path =>
      rw [List.map_cons, List.map_cons, List.intercalate_cons_cons, hcs]
      exact ⟨c, _, rfl, hc⟩

/-- Segments are read one by one, up to where the last of them stops and no point follows. -/
theorem readPath_segments {n : Nat} (hlen : path.length ≤ n) {rest : List Char}
    (hrest : Segment.Stops rest) (hpoint : rest.head? ≠ some '.') :
    readPath n (['.'].intercalate (path.map Segment.text) ++ rest) = some (path, rest) := by
  induction path generalizing n with
  | nil => exact absurd rfl hne
  | cons segment path ih =>
    rw [List.forall_mem_cons] at hpath
    cases n with
    | zero => simp at hlen
    | succ n =>
    cases path with
    | nil =>
      rw [List.map_singleton, List.intercalate_singleton, readPath,
        Segment.read_text hpath.1 hrest]
      cases rest with
      | nil => rfl
      | cons c rest =>
        have hc : c ≠ '.' := by simpa using hpoint
        simp [hc]
    | cons other path =>
      have htail := ih (List.cons_ne_nil other path) hpath.2 (Nat.le_of_succ_le_succ hlen)
      -- a point is behind the first segment, which stops it
      have hread := Segment.read_text hpath.1 (Segment.stops_cons (c := '.') (by decide) (by decide)
        (['.'].intercalate ((other :: path).map Segment.text) ++ rest))
      have htext : ['.'].intercalate ((segment :: other :: path).map Segment.text) ++ rest
          = segment.text ++ '.' ::
            (['.'].intercalate ((other :: path).map Segment.text) ++ rest) := by
        simp [List.intercalate_cons_cons]
      rw [htext, readPath, hread]
      simpa using htail

end

/-! ### Names that were read -/

/-- A qualified name as it is read: one to `n` names and perhaps an alias, none of them empty or
refused. -/
structure Admissible (n : Nat) (q : QualifiedName) : Prop where
  parts_ne_nil : q.parts ≠ []
  length_le : q.parts.length ≤ n
  parts : ∀ part ∈ q.parts, Identifier.Admissible part.toList
  alias? : ∀ name ∈ q.alias?, Identifier.Admissible name.toList

/-- The name of a segment that passed the check is admissible. -/
theorem admissible_of_segmentName {segment : Segment} (hsegment : segment.WellFormed)
    {name : String} (h : segmentName segment = .ok name) : Identifier.Admissible name.toList := by
  obtain ⟨⟨⟩, hcheck, h⟩ := bind_eq_ok.mp h
  obtain rfl := Except.ok.inj h
  rw [String.toList_ofList]
  refine ⟨hsegment.name_ne_nil, ?_⟩
  obtain ⟨hwritten, hmeant⟩ := Identifier.check_eq_ok.mp hcheck
  -- a bare word is checked as it is written, a quoted name also as what it means
  cases segment with
  | bare name => exact hwritten
  | quoted name => rwa [Segment.text, Identifier.decode_quoted hsegment] at hmeant

/-- What is read as a path is written as one: segments with points between them. -/
theorem readPath_some {n : Nat} {s : List Char} {r : List Segment × List Char}
    (h : readPath n s = some r) :
    s = ['.'].intercalate (r.1.map Segment.text) ++ r.2 ∧ r.1 ≠ [] ∧
      ∀ segment ∈ r.1, segment.Proper := by
  induction n generalizing s r with
  | zero => cases h
  | succ n ih =>
    unfold readPath at h
    split at h
    · cases h
    · next segment rest hread =>
      obtain ⟨⟨path, behind⟩, hr, rfl⟩ := Option.map_eq_some_iff.mp h
      obtain ⟨hs, hproper⟩ := Segment.read_some hread
      obtain ⟨hrest, hne, hpath⟩ := ih hr
      refine ⟨?_, List.cons_ne_nil segment path, List.forall_mem_cons.mpr ⟨hproper, hpath⟩⟩
      rw [hs, hrest, List.map_cons, List.intercalate_cons_of_ne_nil (by simpa using hne)]
      simp
    · next segment rest _ hread =>
      obtain rfl := Option.some.inj h
      obtain ⟨hs, hproper⟩ := Segment.read_some hread
      exact ⟨by simpa using hs, List.cons_ne_nil segment [],
        List.forall_mem_singleton.mpr hproper⟩

/-- The text is a path of up to `n` segments with points between them, and perhaps an alias behind
it, with blanks at both ends. -/
inductive Divided (n : Nat) (path : List Segment) (alias? : Option Segment) : List Char → Prop
  | segments {lead tail trail : List Char} : path ≠ [] → path.length ≤ n →
    (∀ segment ∈ path, segment.Proper) → Segment.AliasText alias? tail →
    Text.allBlank lead = true → Text.allBlank trail = true →
    Divided n path alias?
      (lead ++ (['.'].intercalate (path.map Segment.text) ++ (tail ++ trail)))

/-- A text is read as a path and an alias exactly if it consists of them. -/
theorem readParts_eq_some_iff {n : Nat} {s : List Char} {path : List Segment}
    {alias? : Option Segment} :
    readParts n s = some (path, alias?) ↔ Divided n path alias? s := by
  constructor
  · intro h
    obtain ⟨rest, hread, halias⟩ := Grammar.readParts_some h
    obtain ⟨hskip, hne, hpath⟩ := readPath_some hread
    obtain ⟨tail, trail, htail, htrail, rfl⟩ := Segment.readAlias_some halias
    have hs : s = s.takeWhile Text.isBlank
        ++ (['.'].intercalate (path.map Segment.text) ++ (tail ++ trail)) := by
      rw [← hskip, Text.skipBlanks, List.takeWhile_append_dropWhile]
    rw [hs]
    exact .segments hne (Grammar.length_of_readPath hread).2 hpath htail List.all_takeWhile htrail
  · rintro @⟨lead, tail, trail, hne, hlen, hpath, htail, hlead, htrail⟩
    obtain ⟨c, cs, hcs, hc⟩ := exists_head_path hne hpath
    have hskip : Text.skipBlanks (lead ++ (['.'].intercalate (path.map Segment.text)
        ++ (tail ++ trail))) = ['.'].intercalate (path.map Segment.text) ++ (tail ++ trail) := by
      rw [Text.skipBlanks_append hlead, hcs, List.cons_append,
        Text.skipBlanks_cons (Segment.not_isBlank_of_head hc)]
    -- the path ends where a blank follows, or nothing
    have hblank := htail.isBlank_head htrail
    have hread := readPath_segments hne hpath hlen (Segment.stops_of_isBlank hblank)
      (fun hpoint => absurd (hblank '.' hpoint) (by decide))
    rw [readParts, hskip, hread]
    dsimp only [Option.bind_eq_bind, Option.bind_some]
    rw [Segment.readAlias_text htail htrail]
    rfl

/-- Such a text holds more than blanks. -/
theorem Divided.allBlank_eq_false {n : Nat} {s : List Char} {path : List Segment}
    {alias? : Option Segment} (h : Divided n path alias? s) : Text.allBlank s = false := by
  cases h with
  | segments hne _ hpath _ _ _ =>
    obtain ⟨c, cs, hcs, hc⟩ := exists_head_path hne hpath
    exact Text.allBlank_eq_false (Segment.not_isBlank_of_head hc) (by simp [hcs])

/-- The results of several checks are those of the checks one by one. -/
theorem exists_of_mem_mapM {α β : Type} {f : α → Except Error β} {xs : List α} {ys : List β}
    (h : xs.mapM f = .ok ys) {y : β} (hy : y ∈ ys) : ∃ x ∈ xs, f x = .ok y := by
  induction xs generalizing ys with
  | nil =>
    obtain rfl := Except.ok.inj h
    cases hy
  | cons x xs ih =>
    rw [List.mapM_cons] at h
    obtain ⟨z, hz, h⟩ := bind_eq_ok.mp h
    obtain ⟨zs, hzs, h⟩ := bind_eq_ok.mp h
    obtain rfl := Except.ok.inj h
    rcases List.mem_cons.mp hy with rfl | hy
    · exact ⟨x, List.mem_cons_self, hz⟩
    · obtain ⟨x', hx', hf⟩ := ih hzs hy
      exact ⟨x', List.mem_cons_of_mem _ hx', hf⟩

/-- A text is read as the name of its path and its alias, unless one of them is refused. -/
theorem parse_eq_ok_iff {role : NameRole} {s : List Char} {q : QualifiedName} :
    parse role s = .ok q ↔
      ∃ path alias?, Divided role.maxParts path alias? s ∧ ofSegments path alias? = .ok q := by
  unfold parse
  constructor
  · intro h
    split at h
    · cases h
    split at h
    · next path alias? hread => exact ⟨path, alias?, readParts_eq_some_iff.mp hread, h⟩
    · cases h
  · rintro ⟨path, alias?, hs, h⟩
    rw [if_neg (Bool.eq_false_iff.mp hs.allBlank_eq_false), readParts_eq_some_iff.mpr hs]
    exact h

/-- A name is made of its segments and its alias one by one. -/
theorem ofSegments_eq_ok_iff {path : List Segment} {alias? : Option Segment} {q : QualifiedName} :
    ofSegments path alias? = .ok q ↔
      path.mapM segmentName = .ok q.parts ∧ alias?.mapM segmentName = .ok q.alias? := by
  unfold ofSegments
  constructor
  · intro h
    obtain ⟨parts, hparts, h⟩ := bind_eq_ok.mp h
    obtain ⟨name?, hname, h⟩ := bind_eq_ok.mp h
    obtain rfl := Except.ok.inj h
    exact ⟨hparts, hname⟩
  · rintro ⟨hparts, hname⟩
    rw [hparts, hname]
    rfl

/-- Whatever is read as a qualified name is admissible. -/
theorem admissible_of_parse {role : NameRole} {s : List Char} {q : QualifiedName}
    (h : parse role s = .ok q) : q.Admissible role.maxParts := by
  obtain ⟨hne, hlen⟩ := Grammar.parts_of_parse h
  obtain ⟨path, alias?, ⟨-, -, hpath, htail, -, -⟩, hq⟩ := parse_eq_ok_iff.mp h
  obtain ⟨hparts, hname⟩ := ofSegments_eq_ok_iff.mp hq
  refine ⟨hne, hlen, ?_, ?_⟩
  · intro part hpart
    obtain ⟨segment, hsegment, hok⟩ := exists_of_mem_mapM hparts hpart
    exact admissible_of_segmentName (hpath segment hsegment).wellFormed hok
  · intro name hmem
    rw [hmem] at hname
    cases alias? with
    | none => cases hname
    | some segment =>
      obtain ⟨name', hok, hsome⟩ := bind_eq_ok.mp hname
      cases hsome
      exact admissible_of_segmentName (htail.proper segment rfl).wellFormed hok

/-! ### Reading names as they may be written -/

/-- How a qualified name may be written: words and quoted names with points between them, and
perhaps an alias. -/
inductive Spells : QualifiedName → List Char → Prop
  | segments {path : List Segment} {alias? : Option Segment} {tail : List Char} : path ≠ [] →
    (∀ segment ∈ path, segment.Proper) → Segment.AliasText alias? tail →
    Spells ⟨path.map Segment.meaning, alias?.map Segment.meaning⟩
      (['.'].intercalate (path.map Segment.text) ++ tail)

/-- A written name begins with a quote or a letter. -/
theorem Spells.exists_head {q : QualifiedName} {s : List Char} (h : Spells q s) :
    ∃ c cs, s = c :: cs ∧ (c = '"' ∨ Segment.isHead c = true) := by
  cases h with
  | segments hne hpath _ =>
    obtain ⟨c, cs, hcs, hc⟩ := exists_head_path hne hpath
    exact ⟨c, _, by rw [hcs]; rfl, hc⟩

/-- The SQL text is one of the ways to write a name. -/
theorem spells_sql {n : Nat} {q : QualifiedName} (h : q.Admissible n) : Spells q q.sql.toList := by
  have hpath : ∀ segment ∈ (q.parts.map String.toList).map Segment.quoted, segment.Proper := by
    intro segment hsegment
    obtain ⟨name, hname, rfl⟩ := List.mem_map.mp hsegment
    obtain ⟨part, hpart, rfl⟩ := List.mem_map.mp hname
    exact (h.parts part hpart).ne_nil
  have htail := Segment.aliasText_aliasSql q.alias?
    fun name hname => by simpa using (h.alias? name hname).ne_nil
  have hspells := Spells.segments (by simpa using h.parts_ne_nil) hpath htail
  -- quoted segments mean the names between their quotes
  have hparts : ((q.parts.map String.toList).map Segment.quoted).map Segment.meaning = q.parts := by
    simp [Function.comp_def, Segment.meaning, Segment.name]
  rw [hparts, Segment.map_meaning_ofAlias, List.map_map] at hspells
  rw [toList_sql]
  exact hspells

/-- The name of a segment is what the segment means. -/
theorem eq_meaning_of_segmentName {segment : Segment} {name : String}
    (h : segmentName segment = .ok name) : name = segment.meaning := by
  obtain ⟨⟨⟩, -, h⟩ := bind_eq_ok.mp h
  exact (Except.ok.inj h).symm

/-- The results of several checks are known if those of every check are. -/
theorem eq_map_of_mapM {α β : Type} {f : α → Except Error β} {g : α → β}
    (hf : ∀ {x y}, f x = .ok y → y = g x) {xs : List α} {ys : List β} (h : xs.mapM f = .ok ys) :
    ys = xs.map g := by
  induction xs generalizing ys with
  | nil => exact (Except.ok.inj h).symm
  | cons x xs ih =>
    rw [List.mapM_cons] at h
    obtain ⟨y, hy, h⟩ := bind_eq_ok.mp h
    obtain ⟨zs, hzs, h⟩ := bind_eq_ok.mp h
    obtain rfl := Except.ok.inj h
    rw [hf hy, ih hzs, List.map_cons]

/-- The names of segments that are not refused are what the segments mean. -/
theorem eq_meaning_of_ofSegments {path : List Segment} {alias? : Option Segment}
    {q : QualifiedName} (h : ofSegments path alias? = .ok q) :
    q = ⟨path.map Segment.meaning, alias?.map Segment.meaning⟩ := by
  obtain ⟨hparts, hname⟩ := ofSegments_eq_ok_iff.mp h
  have hparts' := eq_map_of_mapM eq_meaning_of_segmentName hparts
  have halias' : q.alias? = alias?.map Segment.meaning := by
    cases alias? with
    | none => exact (Except.ok.inj hname).symm
    | some segment =>
      obtain ⟨name, hok, hsome⟩ := bind_eq_ok.mp hname
      rw [← Except.ok.inj hsome, eq_meaning_of_segmentName hok, Option.map_some]
  rw [← hparts', ← halias']

/-- What is read as a qualified name is written as one, with blanks at both ends. -/
theorem exists_spells_of_parse {role : NameRole} {s : List Char} {q : QualifiedName}
    (h : parse role s = .ok q) : ∃ lead text trail, Text.allBlank lead = true ∧
      Text.allBlank trail = true ∧ s = lead ++ (text ++ trail) ∧ Spells q text := by
  obtain ⟨path, alias?, @⟨lead, tail, trail, hne, -, hpath, htail, hlead, htrail⟩, hq⟩ :=
    parse_eq_ok_iff.mp h
  rw [eq_meaning_of_ofSegments hq]
  exact ⟨lead, _, trail, hlead, htrail, by rw [List.append_assoc], .segments hne hpath htail⟩

/-- A segment whose name is admissible passes the check. -/
theorem segmentName_eq_ok {segment : Segment} (h : segment.Proper)
    (hname : Identifier.Admissible segment.name) : segmentName segment = .ok segment.meaning := by
  have hcheck : Identifier.check segment.text = .ok () := by
    cases segment with
    | quoted name => exact Identifier.check_quoted hname
    | bare name =>
      exact Identifier.check_of_quotedName? (Segment.quotedName?_of_bare h) hname.not_denied
  rw [segmentName, hcheck]
  rfl

/-- The names of a path are those of its segments. -/
theorem mapM_segmentName {path : List Segment} (hpath : ∀ segment ∈ path, segment.Proper)
    (h : ∀ segment ∈ path, Identifier.Admissible segment.name) :
    path.mapM segmentName = .ok (path.map Segment.meaning) := by
  induction path with
  | nil => rfl
  | cons segment path ih =>
    rw [List.forall_mem_cons] at hpath h
    rw [List.mapM_cons, segmentName_eq_ok hpath.1 h.1, ih hpath.2 h.2]
    rfl

/-- However an admissible name is written, it is read as that name. -/
theorem parse_of_spells {role : NameRole} {q : QualifiedName} (h : q.Admissible role.maxParts)
    {s lead trail : List Char} (hs : Spells q s) (hlead : Text.allBlank lead = true)
    (htrail : Text.allBlank trail = true) : parse role (lead ++ (s ++ trail)) = .ok q := by
  cases hs with
  | @segments path alias? tail hne hpath htail =>
    have hparts := mapM_segmentName hpath
      fun segment hsegment => by simpa using h.parts _ (List.mem_map_of_mem hsegment)
    -- the alias is checked in the same way as the parts
    have hname : alias?.mapM segmentName = .ok (alias?.map Segment.meaning) := by
      cases alias? with
      | none => rfl
      | some segment =>
        have hadmissible : Identifier.Admissible segment.name := by simpa using h.alias? _ rfl
        rw [Option.mapM_some, segmentName_eq_ok (htail.proper segment rfl) hadmissible]
        rfl
    rw [List.append_assoc]
    exact parse_eq_ok_iff.mpr ⟨path, alias?,
      .segments hne (by simpa using h.length_le) hpath htail hlead htrail,
      ofSegments_eq_ok_iff.mpr ⟨hparts, hname⟩⟩

/-- The SQL text of an admissible name is read as that name. -/
theorem parse_sql_of_admissible {n : Nat} {q : QualifiedName} (h : q.Admissible n)
    {role : NameRole} (hrole : role.maxParts = n) : parse role q.sql.toList = .ok q := by
  subst hrole
  have hnil : Text.allBlank [] = true := rfl
  have hread := parse_of_spells h (spells_sql h) hnil hnil
  rwa [List.nil_append, List.append_nil] at hread

/-- The SQL text of a qualified name is read as the name again. -/
theorem parse_sql {role : NameRole} {s : List Char} {q : QualifiedName}
    (h : parse role s = .ok q) : parse role q.sql.toList = .ok q :=
  parse_sql_of_admissible (admissible_of_parse h) rfl

/-- Quoting a table a second time changes nothing. -/
theorem quoteTable_quoteTable {expr sql : String} (h : quoteTable expr = .ok sql) :
    quoteTable sql = .ok sql := by
  obtain ⟨q, hq, rfl⟩ := map_eq_ok.mp h
  have hagain : parseTable q.sql = .ok q := parse_sql hq
  rw [quoteTable, hagain]
  rfl

/-- The SQL text of a name is read as that name exactly if there are one to three parts, or two for
a table, and neither a part nor the alias is empty or refused, whatever else it holds.  Nothing but
such names is ever read, so printing what was read and reading it again gives the same name, and
quoting a table a second time changes nothing. -/
theorem reading_undoes_printing :
    (∀ q : QualifiedName, parseColumn q.sql = .ok q ↔ q.Admissible 3) ∧
    (∀ q : QualifiedName, parseTable q.sql = .ok q ↔ q.Admissible 2) ∧
    (∀ expr q, parseColumn expr = .ok q → q.Admissible 3 ∧ parseColumn q.sql = .ok q) ∧
    (∀ expr q, parseTable expr = .ok q → q.Admissible 2 ∧ parseTable q.sql = .ok q) ∧
    (∀ expr sql, quoteTable expr = .ok sql → quoteTable sql = .ok sql) := by
  have hadmissible : ∀ role s q, parse role s = .ok q → q.Admissible role.maxParts :=
    fun _ _ _ => admissible_of_parse
  have hread : ∀ role q, q.Admissible role.maxParts → parse role q.sql.toList = .ok q :=
    fun _ _ h => parse_sql_of_admissible h rfl
  refine ⟨fun q => ⟨fun h => ?_, fun h => ?_⟩, fun q => ⟨fun h => ?_, fun h => ?_⟩,
    fun expr q h => ⟨?_, ?_⟩, fun expr q h => ⟨?_, ?_⟩, fun expr sql h => quoteTable_quoteTable h⟩
  -- what is read is admissible, and what is admissible is read
  · exact hadmissible .column _ q h
  · exact hread .column q h
  · exact hadmissible .table _ q h
  · exact hread .table q h
  · exact hadmissible .column _ q h
  · exact hread .column q (hadmissible .column _ q h)
  · exact hadmissible .table _ q h
  · exact hread .table q (hadmissible .table _ q h)

/-- Points, quotes, blanks, parentheses and the word AS in names and in an alias. -/
theorem reading_undoes_printing_delimiters :
    let q : QualifiedName := ⟨["a.\"b", ", (\n", "\"\""], some "x AS \"y\""⟩
    parseColumn q.sql = .ok q ∧
    parseTable "\"s.\"\"t\" as" = .ok ⟨["s.\"t"], some "as"⟩ ∧
    parseTable "\"s.\"\"t\" AS \"as\"" = .ok ⟨["s.\"t"], some "as"⟩ ∧
    quoteTable "\"s.\"\"t\" AS \"as\"" = .ok "\"s.\"\"t\" AS \"as\"" := by
  intro q
  obtain ⟨hcolumn, -, -, htable, hquote⟩ := reading_undoes_printing
  have hq : q.Admissible 3 := by
    refine ⟨by decide, by decide, ?_, ?_⟩
    · intro part hpart
      simp only [q, List.mem_cons, List.not_mem_nil, or_false] at hpart
      rcases hpart with rfl | rfl | rfl <;> exact ⟨by decide, by decide +kernel⟩
    · intro name hname
      obtain rfl := Option.some.inj hname
      exact ⟨by decide, by decide +kernel⟩
  have hread : parseTable "\"s.\"\"t\" as" = .ok ⟨["s.\"t"], some "as"⟩ := by decide +kernel
  have hquoted : quoteTable "\"s.\"\"t\" as" = .ok "\"s.\"\"t\" AS \"as\"" := by
    decide +kernel
  exact ⟨(hcolumn q).mpr hq, hread, (htable _ _ hread).2, hquote _ _ hquoted⟩

end SqlAssembly.QualifiedName

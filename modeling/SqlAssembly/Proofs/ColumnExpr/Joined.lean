import Mathlib.Algebra.Group.Int.Defs
import Mathlib.Algebra.Group.Nat.Defs
import SqlAssembly.Proofs.ColumnExpr.Arguments

namespace SqlAssembly

/-!
# Splitting undoes joining

Any texts can be joined by commas and split again, as long as each of them closes its quotes, comes
back to depth zero and has no comma there.  Between, a text may open and close parentheses in any
order, also close one that it never opened.  While fewer than `2 ^ 31` parentheses are there, the
depth stays within 32 bits, so that a counter of that size does the same.

* `ArgumentList.Stretch` — what a text is made of: stretches without quotes, and quoted texts;
* `ArgumentList.depthChange`, `ArgumentList.NoComma` — depth, and commas at depth zero;
* `ArgumentList.Joinable` — the texts that can be joined;
* `ArgumentList.after_stretches` — how the depth is counted over stretches;
* `ArgumentList.topLevelWithin_eq` — a counter of limited range finds the same pieces;
* `ArgumentList.splitArguments_joined` — splitting gives back what was joined.
-/

namespace ArgumentList

/-! ### Texts that can be joined -/

/-- A stretch of a text: without any quotes, or a text between quotes, with those inside doubled. -/
inductive Stretch where
  | bare (text : List Char)
  | quoted (quote : Char) (content : List Char)
  deriving DecidableEq, Repr

namespace Stretch

/-- The text of a stretch. -/
def text : Stretch → List Char
  | bare text => text
  | quoted quote content => Text.quoted quote content

/-- What of a stretch stands outside of quotes. -/
def outside : Stretch → List Char
  | bare text => text
  | quoted _ _ => []

/-- Double quotes and apostrophes are quotes, and nothing else is. -/
def Proper : Stretch → Prop
  | bare text => '"' ∉ text ∧ '\'' ∉ text
  | quoted quote _ => quote = '"' ∨ quote = '\''

instance : DecidablePred Proper
  | bare text => inferInstanceAs (Decidable ('"' ∉ text ∧ '\'' ∉ text))
  | quoted quote _ => inferInstanceAs (Decidable (quote = '"' ∨ quote = '\''))

end Stretch

/-- The parentheses that a text opens, less those that it closes. -/
def depthChange (s : List Char) : Int := s.count '(' - s.count ')'

/-- Behind `depth` open parentheses, no comma of the text stands where all are closed. -/
def NoComma (depth : Int) (s : List Char) : Prop :=
  ∀ i (h : i < s.length), s[i] = ',' → depth + depthChange (s.take i) ≠ 0

instance (depth : Int) (s : List Char) : Decidable (NoComma depth s) :=
  inferInstanceAs (Decidable (∀ i (h : i < s.length), s[i] = ',' →
    depth + depthChange (s.take i) ≠ 0))

/-- A text that can be joined with others by commas: it is not empty, has no blanks at its ends,
closes its quotes, and outside of them ends at depth zero and has no comma there. -/
structure Joinable (s : List Char) : Prop where
  trimmed : Text.Trimmed s
  closed : ∃ stretches : List Stretch, (∀ t ∈ stretches, t.Proper) ∧
    s = stretches.flatMap Stretch.text ∧
    depthChange (stretches.flatMap Stretch.outside) = 0 ∧
    NoComma 0 (stretches.flatMap Stretch.outside)

/-! ### Depth -/

@[simp] theorem depthChange_nil : depthChange [] = 0 := rfl

/-- The depth changes by the first character and then by the others. -/
theorem depthChange_cons (c : Char) (s : List Char) :
    depthChange (c :: s) = depthChange [c] + depthChange s := by
  simp only [depthChange, List.count_cons, List.count_nil]
  omega

/-- The changes of two parts add up. -/
theorem depthChange_append (s t : List Char) :
    depthChange (s ++ t) = depthChange s + depthChange t := by
  simp only [depthChange, List.count_append]
  omega

/-- The first character is no comma at depth zero, and none is behind it. -/
theorem NoComma.cons {depth : Int} {c : Char} {s : List Char} (h : NoComma depth (c :: s)) :
    ¬ (c = ',' ∧ depth = 0) ∧ NoComma (depth + depthChange [c]) s := by
  constructor
  · rintro ⟨rfl, rfl⟩
    exact h 0 (Nat.zero_lt_succ _) rfl rfl
  · intro i hi hcomma
    have hdepth := h (i + 1) (Nat.succ_lt_succ hi) hcomma
    rwa [List.take_succ_cons, depthChange_cons, ← Int.add_assoc] at hdepth

/-- No comma of either part is at depth zero, where the second begins at the depth that the first
leaves. -/
theorem NoComma.append {depth : Int} {s t : List Char} (h : NoComma depth (s ++ t)) :
    NoComma depth s ∧ NoComma (depth + depthChange s) t := by
  constructor
  · intro i hi hcomma
    have hdepth := h i (by simp; omega) (by rwa [List.getElem_append_left hi])
    rwa [List.take_append_of_le_length (Nat.le_of_lt hi)] at hdepth
  · intro i hi hcomma
    have hdepth := h (s.length + i) (by simpa using hi) (by simpa using hcomma)
    rwa [List.take_length_add_append, depthChange_append, ← Int.add_assoc] at hdepth

/-- Outside of quotes the depth changes by the parentheses. -/
theorem after_bare {depth : Int} {s : List Char} (hname : '"' ∉ s) (hstring : '\'' ∉ s)
    (h : NoComma depth s) : after depth none s = some (depth + depthChange s, none) := by
  induction s generalizing depth with
  | nil => simp [after]
  | cons c s ih =>
    rw [List.mem_cons, not_or] at hname hstring
    obtain ⟨hcomma, hrest⟩ := h.cons
    have hstep := ih hname.2 hstring.2 hrest
    have hquote : ¬ (c = '"' ∨ c = '\'') := not_or_intro (Ne.symm hname.1) (Ne.symm hstring.1)
    -- neither a comma at depth zero nor a quote, so only parentheses count
    rw [after, if_neg hcomma, if_neg hquote, depthChange_cons, ← Int.add_assoc]
    by_cases hopen : c = '('
    · subst hopen
      exact hstep
    by_cases hclose : c = ')'
    · subst hclose
      exact hstep
    have hsame : depthChange [c] = 0 := by simp [depthChange, hopen, hclose]
    rw [if_neg hopen, if_neg hclose, hsame, Int.add_zero]
    rwa [hsame, Int.add_zero] at hstep

/-- A quoted text changes nothing, so only what is outside of quotes counts. -/
theorem after_stretches {depth : Int} {stretches : List Stretch}
    (hproper : ∀ t ∈ stretches, t.Proper)
    (h : NoComma depth (stretches.flatMap Stretch.outside)) :
    after depth none (stretches.flatMap Stretch.text)
      = some (depth + depthChange (stretches.flatMap Stretch.outside), none) := by
  induction stretches generalizing depth with
  | nil => simp [after]
  | cons t stretches ih =>
    rw [List.forall_mem_cons] at hproper
    rw [List.flatMap_cons] at h
    obtain ⟨hhead, hrest⟩ := h.append
    -- a stretch between quotes is passed over, one without quotes is counted
    have hstep : after depth none t.text = some (depth + depthChange t.outside, none) := by
      cases t with
      | bare text => exact after_bare hproper.1.1 hproper.1.2 hhead
      | quoted quote content =>
        rw [Stretch.outside, depthChange_nil, Int.add_zero]
        exact Keeps.quoted hproper.1 content depth (Int.le_refl depth)
    rw [List.flatMap_cons, List.flatMap_cons, after_append, hstep, Option.bind_some,
      ih hproper.2 hrest, depthChange_append, Int.add_assoc]

/-- Behind a text that can be joined, the depth is zero again and no quote is open. -/
theorem Joinable.after_eq {s : List Char} (h : Joinable s) : after 0 none s = some (0, none) := by
  obtain ⟨stretches, hproper, rfl, hlevel, hcomma⟩ := h.closed
  rw [after_stretches hproper hcomma, hlevel, Int.add_zero]

/-! ### A counter of limited range -/

/-- The pieces between the commas at depth zero, as long as the depth is at least `-limit` and less
than `limit`. -/
def topLevelWithin (limit depth : Int) :
    Option Char → List Char → Option (List (List Char))
  | _, [] => some [[]]
  | some q, c :: s =>
    (topLevelWithin limit depth (if c = q then none else some q) s).map (·.modifyHead (c :: ·))
  | none, c :: s =>
    if c = ',' ∧ depth = 0 then (topLevelWithin limit depth none s).map ([] :: ·)
    else if c = '"' ∨ c = '\'' then
      (topLevelWithin limit depth (some c) s).map (·.modifyHead (c :: ·))
    else if c = '(' then
      if depth + 1 < limit then
        (topLevelWithin limit (depth + 1) none s).map (·.modifyHead (c :: ·))
      else none
    else if c = ')' then
      if -limit ≤ depth - 1 then
        (topLevelWithin limit (depth - 1) none s).map (·.modifyHead (c :: ·))
      else none
    else (topLevelWithin limit depth none s).map (·.modifyHead (c :: ·))

/-- Counting over a text from some depth stays in range, whatever the order of its parentheses. -/
structure InRange (limit depth : Int) (s : List Char) : Prop where
  low : -limit ≤ depth - s.count ')'
  high : depth + s.count '(' < limit

namespace InRange

variable {limit depth : Int} {c : Char} {s : List Char}

/-- What is in range stays there for the rest of the text. -/
theorem tail (h : InRange limit depth (c :: s)) : InRange limit depth s := by
  have hclosed : s.count ')' ≤ (c :: s).count ')' := List.count_le_count_cons
  have hopened : s.count '(' ≤ (c :: s).count '(' := List.count_le_count_cons
  have := h.low
  have := h.high
  constructor <;> omega

/-- There is room for an opening parenthesis. -/
theorem opened (h : InRange limit depth ('(' :: s)) :
    depth + 1 < limit ∧ InRange limit (depth + 1) s := by
  have hlow := h.tail.low
  have hhigh := h.high
  rw [List.count_cons_self] at hhigh
  exact ⟨by omega, by omega, by omega⟩

/-- There is room for a closing one. -/
theorem closed (h : InRange limit depth (')' :: s)) :
    -limit ≤ depth - 1 ∧ InRange limit (depth - 1) s := by
  have hlow := h.low
  have hhigh := h.tail.high
  rw [List.count_cons_self] at hlow
  exact ⟨by omega, by omega, by omega⟩

end InRange

/-- A counter that does not leave its range finds the same pieces. -/
theorem topLevelWithin_eq {limit depth : Int} {quote? : Option Char} {s : List Char}
    (h : InRange limit depth s) :
    topLevelWithin limit depth quote? s = some (topLevel depth quote? s) := by
  fun_induction topLevel depth quote? s with
  | case1 => rw [topLevelWithin]
  | case2 depth q c s ih => rw [topLevelWithin, ih h.tail, Option.map_some]
  | case3 depth c s hcomma ih => rw [topLevelWithin, if_pos hcomma, ih h.tail, Option.map_some]
  | case4 depth c s hcomma hquote ih =>
    rw [topLevelWithin, if_neg hcomma, if_pos hquote, ih h.tail, Option.map_some]
  | case5 depth s hcomma hquote ih =>
    obtain ⟨hlimit, hs⟩ := h.opened
    rw [topLevelWithin, if_neg hcomma, if_neg hquote, if_pos rfl, if_pos hlimit, ih hs,
      Option.map_some]
  | case6 depth s hcomma hquote hopen ih =>
    obtain ⟨hlimit, hs⟩ := h.closed
    rw [topLevelWithin, if_neg hcomma, if_neg hquote, if_neg hopen, if_pos rfl, if_pos hlimit,
      ih hs, Option.map_some]
  | case7 depth c s hcomma hquote hopen hclose ih =>
    rw [topLevelWithin, if_neg hcomma, if_neg hquote, if_neg hopen, if_neg hclose, ih h.tail,
      Option.map_some]

/-! ### Joined texts -/

/-- A text among others that are joined, with the blanks around it. -/
structure Entry where
  before : List Char
  text : List Char
  behind : List Char
  deriving DecidableEq, Repr

namespace Entry

/-- What stands between two commas. -/
def piece (e : Entry) : List Char := e.before ++ (e.text ++ e.behind)

/-- There are only blanks around the text. -/
def Padded (e : Entry) : Prop :=
  Text.allBlank e.before = true ∧ Text.allBlank e.behind = true

instance : DecidablePred Padded := fun _ => inferInstanceAs (Decidable (_ ∧ _))

end Entry

/-- The entries between commas. -/
def joined (entries : List Entry) : String :=
  String.ofList ([','].intercalate (entries.map Entry.piece))

/-- Texts that are joined by commas, with any blanks around each of them, are split into the same
texts in the same order, and a counter of 32 bits is enough for fewer than `2 ^ 31` parentheses. -/
theorem splitArguments_joined {entries : List Entry} (hpadded : ∀ e ∈ entries, e.Padded)
    (htexts : ∀ e ∈ entries, Joinable e.text)
    (hparens : (joined entries).toList.count '(' + (joined entries).toList.count ')' < 2 ^ 31) :
    splitArguments (joined entries) = entries.map (fun e => String.ofList e.text) ∧
      topLevelWithin (2 ^ 31) 0 none (joined entries).toList
        = some (topLevel 0 none (joined entries).toList) := by
  constructor
  · have hsplit : split ([','].intercalate (entries.map Entry.piece)) = entries.map Entry.text :=
      split_padded hpadded fun e he => ⟨(htexts e he).trimmed, (htexts e he).after_eq⟩
    rw [splitArguments, joined, String.toList_ofList, hsplit, List.map_map]
    rfl
  -- the depth is never below minus the closing nor above the opening ones
  · exact topLevelWithin_eq ⟨by omega, by omega⟩

/-- A call with both kinds of quotes, a string with parentheses and the other quote in it, a comma
below depth zero, and blanks beyond ASCII. -/
theorem splitArguments_joined_delimiters :
    splitArguments "f(\"a,)\"\"b\", '(') ,\u00a0'it''s, \"(ok' ,\t),( "
      = ["f(\"a,)\"\"b\", '(')", "'it''s, \"(ok'", "),("] := by
  have hcall : Joinable "f(\"a,)\"\"b\", '(')".toList :=
    ⟨⟨⟨'f', by decide⟩, ⟨')', by decide⟩⟩,
      [.bare ['f', '('], .quoted '"' "a,)\"b".toList, .bare [',', ' '], .quoted '\'' ['('],
        .bare [')']], by decide, by decide, by decide, by decide⟩
  have hstring : Joinable "'it''s, \"(ok'".toList :=
    ⟨⟨⟨'\'', by decide⟩, ⟨'\'', by decide⟩⟩, [.quoted '\'' "it's, \"(ok".toList], by decide,
      by decide, by decide, by decide⟩
  have hcrossed : Joinable "),(".toList :=
    ⟨⟨⟨')', by decide⟩, ⟨'(', by decide⟩⟩, [.bare [')', ',', '(']], by decide, by decide,
      by decide, by decide⟩
  exact (@splitArguments_joined
    [⟨[], "f(\"a,)\"\"b\", '(')".toList, [' ']⟩, ⟨['\u00a0'], "'it''s, \"(ok'".toList, [' ']⟩,
      ⟨['\t'], "),(".toList, [' ']⟩]
    (by decide)
    (List.forall_mem_cons.mpr
      ⟨hcall, List.forall_mem_cons.mpr ⟨hstring, List.forall_mem_singleton.mpr hcrossed⟩⟩)
    (by decide)).1

end ArgumentList

end SqlAssembly

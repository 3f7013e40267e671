import SqlAssembly.Operator
import SqlAssembly.Proofs.ColumnExpr.CallShape

namespace SqlAssembly

/-!
# What spells an operator

The text of an operator is read word by word: its words may be in any ASCII case, and any blanks may
stand between them and at the two ends.

* `Text.Worded` — a text that consists of given words and blanks;
* `Operator.Spelled` — a text that spells an operator;
* `Operator.parse?_eq_some_iff` — an operator is read from the texts that spell it, and only from
  these;
* `Operator.Class.members` — the operators of each class.
-/

/-! ### Words -/

namespace Text

/-- The text consists of these words, with blanks between them and perhaps at its ends. -/
inductive Worded : List (List Char) → List Char → Prop
  | blank {s : List Char} : allBlank s = true → Worded [] s
  | word {b w s : List Char} {ws : List (List Char)} : allBlank b = true → w ≠ [] →
    (∀ c ∈ w, isBlank c = false) → (∀ c ∈ s.head?, isBlank c = true) → Worded ws s →
    Worded (w :: ws) (b ++ w ++ s)

/-- The words of a text: its runs of characters that are no blanks. -/
def words (s : List Char) : List (List Char) := runs (fun c => !isBlank c) s

/-- Blanks in front of a text add no words. -/
theorem words_blanks_append {b : List Char} (hb : allBlank b = true) (s : List Char) :
    words (b ++ s) = words s := by
  induction b with
  | nil => rfl
  | cons c b ih =>
    rw [allBlank, List.all_cons, Bool.and_eq_true] at hb
    have hc : (!isBlank c) = false := by simp [hb.1]
    rw [words, List.cons_append, runs_cons_outside hc]
    exact ih hb.2

/-- A blank text has no words. -/
theorem words_eq_nil {s : List Char} (hs : allBlank s = true) : words s = [] := by
  have h := words_blanks_append hs []
  rw [List.append_nil] at h
  exact h

/-- A word that a blank or the end follows is the first of the words. -/
theorem words_append {w s : List Char} (hne : w ≠ []) (hw : ∀ c ∈ w, isBlank c = false)
    (hs : ∀ c ∈ s.head?, isBlank c = true) : words (w ++ s) = w :: words s := by
  have hword : words w = [w] := runs_eq_singleton hne fun c hc => by simp [hw c hc]
  cases s with
  | nil => rw [List.append_nil, hword, words_eq_nil rfl]
  | cons c s =>
    have hc : (!isBlank c) = false := by simp [hs c rfl]
    have hsplit : words (w ++ c :: s) = words w ++ words s := runs_append_cons hc w s
    have hrest : words (c :: s) = words s := runs_cons_outside hc s
    rw [hsplit, hrest, hword]
    rfl

/-- What a text consists of are its words. -/
theorem Worded.words_eq {ws : List (List Char)} {s : List Char} (h : Worded ws s) :
    words s = ws := by
  induction h with
  | blank hs => exact words_eq_nil hs
  | word hb hne hw hs _ ih =>
    rw [List.append_assoc, words_blanks_append hb, words_append hne hw hs, ih]

/-- One more blank in front changes no word. -/
theorem Worded.cons_blank {c : Char} (hc : isBlank c = true) {ws : List (List Char)}
    {s : List Char} (h : Worded ws s) : Worded ws (c :: s) := by
  have hall : ∀ {b : List Char}, allBlank b = true → allBlank (c :: b) = true := by
    intro b hb
    rw [allBlank, List.all_cons, hc]
    exact hb
  cases h with
  | blank hs => exact .blank (hall hs)
  | word hb hne hw hs hrest => exact .word (hall hb) hne hw hs hrest

/-- A letter begins a word of its own, or the first word of the text behind it. -/
theorem Worded.exists_cons {c : Char} (hc : isBlank c = false) {ws : List (List Char)}
    {s : List Char} (h : Worded ws s) : ∃ vs, Worded vs (c :: s) := by
  by_cases hs : ∀ d ∈ s.head?, isBlank d = true
  · have hw : ∀ d ∈ [c], isBlank d = false := by simpa using hc
    exact ⟨[c] :: ws, .word (b := []) rfl (List.cons_ne_nil c []) hw hs h⟩
  · cases h with
    | blank hblank =>
      -- a blank text does not begin with a letter
      refine absurd ?_ hs
      intro d hd
      exact List.all_eq_true.mp hblank d (List.mem_of_mem_head? hd)
    | @word b w t ws hb hne hw ht hrest =>
      cases b with
      | nil =>
        have hcw : ∀ d ∈ c :: w, isBlank d = false := List.forall_mem_cons.mpr ⟨hc, hw⟩
        exact ⟨(c :: w) :: ws, .word (b := []) rfl (List.cons_ne_nil c w) hcw ht hrest⟩
      | cons d b =>
        refine absurd ?_ hs
        intro d' hd'
        obtain rfl := Option.some.inj hd'
        exact List.all_eq_true.mp hb d List.mem_cons_self

/-- Every text consists of its words. -/
theorem worded_words (s : List Char) : Worded (words s) s := by
  have hexists : ∃ ws, Worded ws s := by
    induction s with
    | nil => exact ⟨[], .blank rfl⟩
    | cons c s ih =>
      obtain ⟨ws, hws⟩ := ih
      by_cases hc : isBlank c = true
      · exact ⟨ws, hws.cons_blank hc⟩
      · exact hws.exists_cons (Bool.eq_false_iff.mpr hc)
  obtain ⟨ws, hws⟩ := hexists
  rw [hws.words_eq]
  exact hws

/-- There are no blanks in words. -/
theorem not_isBlank_of_mem_words {s w : List Char} (hw : w ∈ words s) :
    ∀ c ∈ w, isBlank c = false := by
  have h := worded_words s
  generalize words s = ws at h hw
  induction h with
  | blank => cases hw
  | word _ _ hfirst _ _ ih =>
    rcases List.mem_cons.mp hw with rfl | hrest
    · exact hfirst
    · exact ih hrest

/-- The words with one space between them. -/
def spaced (ws : List (List Char)) : List Char := (ws.intersperse [' ']).flatten

/-- Between two words there is one space. -/
theorem spaced_cons_cons (w v : List Char) (ws : List (List Char)) :
    spaced (w :: v :: ws) = w ++ ' ' :: spaced (v :: ws) := by
  simp [spaced]

/-- Words are the pieces between the spaces. -/
theorem pieces_spaced {ws : List (List Char)} (hne : ws ≠ []) (hws : ∀ w ∈ ws, ' ' ∉ w) :
    pieces (· == ' ') (spaced ws) = ws := by
  have hword : ∀ {w : List Char}, ' ' ∉ w → pieces (· == ' ') w = [w] := by
    intro w hw
    apply pieces_eq_singleton
    intro c hc
    exact beq_false_of_ne fun h => hw (h ▸ hc)
  induction ws with
  | nil => exact absurd rfl hne
  | cons w ws ih =>
    rw [List.forall_mem_cons] at hws
    cases ws with
    | nil =>
      have hsingle : spaced [w] = w := by simp [spaced]
      rw [hsingle, hword hws.1]
    | cons v ws =>
      -- the first space is behind the first word, as that has none
      rw [spaced_cons_cons, pieces_append_cons rfl, hword hws.1, ih (List.cons_ne_nil v ws) hws.2]
      rfl

/-- What is done to every character may be done word by word, if spaces stay. -/
theorem map_spaced (f : Char → Char) (hf : f ' ' = ' ') (ws : List (List Char)) :
    (spaced ws).map f = spaced (ws.map (·.map f)) := by
  induction ws with
  | nil => rfl
  | cons w ws ih =>
    cases ws with
    | nil => simp [spaced]
    | cons v ws =>
      rw [spaced_cons_cons, List.map_append, List.map_cons, hf, ih]
      exact (spaced_cons_cons _ _ _).symm

/-- Only a space has a space as its capital. -/
theorem eq_space_of_toUpper {c : Char} (h : c.toUpper = ' ') : c = ' ' := by
  unfold Char.toUpper at h
  split at h
  · next hc =>
    -- the capital of a small letter is 32 less, in words of 32 bits
    have hcapital := congrArg (fun d : Char => d.val.toNat) h
    simp only [UInt32.le_iff_toNat_le] at hc
    simp at hcapital hc
    omega
  · exact h

end Text

/-! ### Operators -/

namespace Operator

/-- The words of an operator. -/
def words (op : Operator) : List (List Char) := Text.pieces (· == ' ') op.sql.toList

/-- The text spells the operator: it has the same words, in any ASCII case. -/
def Spelled (op : Operator) (text : String) : Prop :=
  ∃ ws, Text.Worded ws text.toList ∧ ws.map (·.map Char.toUpper) = op.words

/-- The text of an operator is its words with one space between them. -/
theorem spaced_words (op : Operator) : Text.spaced op.words = op.sql.toList := by
  cases op <;> decide

/-- An operator is read from a text that becomes its own one in capitals and with single spaces. -/
theorem parse?_eq_some_iff_normalized {text : String} {op : Operator} :
    parse? text = some op ↔ normalized text = op.sql.toList := by
  constructor
  · intro h
    have := List.find?_some h
    exact (eq_of_beq this).symm
  · intro h
    rw [parse?, h]
    cases op <;> decide

/-- An operator is read from the texts that spell it, and only from these. -/
theorem parse?_eq_some_iff {text : String} {op : Operator} :
    parse? text = some op ↔ op.Spelled text := by
  have hnormalized : normalized text
      = Text.spaced ((Text.words text.toList).map (·.map Char.toUpper)) :=
    Text.map_spaced Char.toUpper (by decide) (Text.words text.toList)
  rw [parse?_eq_some_iff_normalized, hnormalized]
  constructor
  · intro h
    refine ⟨Text.words text.toList, Text.worded_words _, ?_⟩
    -- no word has a space, so the words of the operator are found again
    have hspace : ∀ w ∈ (Text.words text.toList).map (·.map Char.toUpper), ' ' ∉ w := by
      intro w hw hspace
      obtain ⟨v, hv, rfl⟩ := List.mem_map.mp hw
      obtain ⟨c, hc, hupper⟩ := List.mem_map.mp hspace
      have hblank := Text.not_isBlank_of_mem_words hv c hc
      rw [Text.eq_space_of_toUpper hupper] at hblank
      exact absurd hblank (by decide)
    have hne : (Text.words text.toList).map (·.map Char.toUpper) ≠ [] := by
      intro hnil
      rw [hnil] at h
      cases op <;> cases h
    rw [words, ← h, Text.pieces_spaced hne hspace]
  · rintro ⟨ws, hws, hwords⟩
    rw [hws.words_eq, hwords, spaced_words]

/-- The operators of a class. -/
def Class.members : Class → List Operator
  | .comparison => [.eq, .ne, .notEqual, .gt, .lt, .gte, .lte]
  | .list => [.isIn, .notIn]
  | .pattern => [.like, .notLike, .ilike, .notIlike]
  | .nullCheck => [.isNull, .isNotNull]
  | .range => [.between, .notBetween]

/-- An operator is of a class if it is one of its members. -/
theorem cls_eq_iff {op : Operator} {k : Class} : op.cls = k ↔ op ∈ k.members := by
  cases op <;> cases k <;> decide

end Operator

end SqlAssembly

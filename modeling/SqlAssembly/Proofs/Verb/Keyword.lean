import Mathlib.Data.List.Forall2
import SqlAssembly.Proofs.Text.Blank
import SqlAssembly.Proofs.Verb

namespace SqlAssembly.Verb

/-!
# The first keyword of a statement

What stands in front of a statement can be skipped in rounds.  A round skips blanks, and then one
comment or one opening parenthesis; the last one finds nothing to skip, or a comment that never
ends.  Every other round leaves less of the text, so there is a last one, and behind it the text
begins with what tells its verb.

* `behind?`, `round` — one round of skipping;
* `Leaves`, `leaves_round` — what a round comes to;
* `Rounds`, `rounds_skipLead` — the rounds come to an end, and leave what is left of the text;
* `AtStart`, `atStart_skipLead` — nothing that is skipped stands there;
* `BeginsWith`, `startsWith_iff` — a keyword at the beginning of a text, in any case;
* `ofSql_eq_iff` — each verb is told by its keyword;
* `ofSql_of_rounds` — all of this for a text.
-/

/-! ### Rounds of skipping -/

/-- The text behind the first place where the delimiter stands. -/
def behind? (delimiter : List Char) : List Char → Option (List Char)
  | [] => none
  | c :: s =>
    if delimiter <+: c :: s then some ((c :: s).drop delimiter.length) else behind? delimiter s

/-- What comes of a round: there is more to do with what is left, or nothing. -/
inductive Round where
  | again (s : List Char)
  | done (s : List Char)
  deriving DecidableEq, Repr

/-- Skips blanks, and then a comment or an opening parenthesis.  There is nothing more to do when
the text is still the same; a comment without an end leaves nothing of the text. -/
def round (s : List Char) : Round :=
  let t := Text.skipBlanks s
  if ['-', '-'] <+: t then (behind? ['\n'] t).elim (.done []) .again
  else if ['/', '*'] <+: t then (behind? ['*', '/'] t).elim (.done []) .again
  else if ['('] <+: t then .again (t.drop 1)
  else if t = s then .done s
  else .again t

/-- So many rounds lead from a text to what is left of it. -/
inductive Rounds : Nat → List Char → List Char → Prop
  | done {s t : List Char} : round s = .done t → Rounds 1 s t
  | again {n : Nat} {s t u : List Char} : round s = .again t → Rounds n t u → Rounds (n + 1) s u

/-- The text does not begin with anything that is skipped. -/
structure AtStart (s : List Char) : Prop where
  blank : ∀ c ∈ s.head?, Text.isBlank c = false
  paren : ¬ ['('] <+: s
  line : ¬ ['-', '-'] <+: s
  block : ¬ ['/', '*'] <+: s

/-! ### Rounds and characters -/

/-- Where the delimiter does not stand, it is searched for behind the next character. -/
theorem behind?_cons {delimiter s : List Char} {c : Char} (h : ¬ delimiter <+: c :: s) :
    behind? delimiter (c :: s) = behind? delimiter s := if_neg h

/-- The delimiter itself is in front of what is found. -/
theorem behind?_suffix {delimiter s t : List Char} (h : behind? delimiter s = some t) :
    t <:+ s ∧ t.length + delimiter.length ≤ s.length := by
  induction s with
  | nil => cases h
  | cons c s ih =>
    unfold behind? at h
    split at h
    · next hprefix =>
      obtain rfl := Option.some.inj h
      have hlength := hprefix.length_le
      refine ⟨List.drop_suffix _ _, ?_⟩
      rw [List.length_drop]
      omega
    · obtain ⟨hsuffix, hlength⟩ := ih h
      refine ⟨hsuffix.trans (List.suffix_cons c s), ?_⟩
      rw [List.length_cons]
      omega

/-- Blanks may be skipped first, since they are skipped anyway. -/
theorem skipLead_skipBlanks (s : List Char) : skipLead (Text.skipBlanks s) = skipLead s := by
  induction s with
  | nil => rfl
  | cons c s ih =>
    by_cases hc : Text.isBlank c = true
    · have hskip : Text.skipBlanks (c :: s) = Text.skipBlanks s := List.dropWhile_cons_of_pos hc
      rw [hskip, ih, skipLead_blank hc]
    · rw [Text.skipBlanks_cons (Bool.eq_false_iff.mpr hc)]

/-- A line is skipped up to its first line break. -/
theorem skipLine_eq (s : List Char) : skipLine s = (behind? ['\n'] s).elim [] skipLead := by
  induction s with
  | nil => simp [skipLine, behind?]
  | cons c s ih =>
    rw [skipLine, behind?]
    by_cases hc : c = '\n'
    · simp [hc]
    · simp [hc, Ne.symm hc, ih]

/-- A block is skipped up to its first closing delimiter, which may begin with the star that was
read last. -/
theorem skipBlock_eq (star : Bool) (s : List Char) :
    skipBlock star s
      = (behind? ['*', '/'] (if star then '*' :: s else s)).elim [] skipLead := by
  induction s generalizing star with
  | nil => cases star <;> simp [skipBlock, behind?]
  | cons c s ih =>
    -- the character may begin the closing delimiter
    have hstep : skipBlock (c = '*') s = (behind? ['*', '/'] (c :: s)).elim [] skipLead := by
      rw [ih]
      by_cases hc : c = '*'
      · simp [hc]
      · rw [behind?_cons (by simp [Ne.symm hc]), if_neg (by simpa using hc)]
    -- without a star before, a slash does not end the comment
    cases star with
    | false => simpa [skipBlock] using hstep
    | true =>
      by_cases hc : c = '/'
      · simp [hc, skipBlock, behind?]
      · have hopen : behind? ['*', '/'] ('*' :: c :: s) = behind? ['*', '/'] (c :: s) :=
          behind?_cons (by simp [Ne.symm hc])
        rw [skipBlock, if_neg (by simp [hc]), hstep, if_pos rfl, hopen]

/-- A comment of one line is skipped up to the end of the line. -/
theorem skipLead_of_line {s : List Char} (h : ['-', '-'] <+: s) :
    skipLead s = (behind? ['\n'] s).elim [] skipLead := by
  obtain ⟨rest, rfl⟩ := h
  show skipLine rest = _
  rw [skipLine_eq, List.cons_append, behind?_cons (by simp), List.cons_append,
    behind?_cons (by simp), List.nil_append]

/-- A block is skipped up to the first closing delimiter behind its slash. -/
theorem skipLead_of_block {s : List Char} (h : ['/', '*'] <+: s) :
    skipLead s = (behind? ['*', '/'] s).elim [] skipLead := by
  obtain ⟨rest, rfl⟩ := h
  have hopen : behind? ['*', '/'] ('/' :: '*' :: rest) = behind? ['*', '/'] ('*' :: rest) :=
    behind?_cons (by simp)
  show skipBlock true rest = (behind? ['*', '/'] ('/' :: '*' :: rest)).elim [] skipLead
  rw [skipBlock_eq, if_pos rfl, hopen]

/-- Where nothing is to be skipped, the text stays. -/
theorem skipLead_of_atStart {s : List Char} (h : AtStart s) : skipLead s = s := by
  rw [skipLead.eq_def]
  split
  · rfl
  · exact absurd ⟨_, rfl⟩ h.line
  · exact absurd ⟨_, rfl⟩ h.block
  · exact absurd ⟨_, rfl⟩ h.paren
  · next c s _ _ _ => rw [if_neg (Bool.eq_false_iff.mp (h.blank c rfl))]

/-! ### What a round does -/

theorem atStart_nil : AtStart [] := ⟨nofun, by simp, by simp, by simp⟩

/-- What a round may come to: a shorter text, of which the same is left in the end, or the end. -/
inductive Leaves (s : List Char) : Round → Prop
  | again {t : List Char} : t <:+ s → t.length < s.length → skipLead s = skipLead t →
    Leaves s (.again t)
  | done {t : List Char} : t <:+ s → AtStart t → skipLead s = t → Leaves s (.done t)

/-- A comment is skipped, and all of the text if the comment does not end. -/
theorem leaves_comment {delimiter s t : List Char} (hne : delimiter ≠ []) (ht : t <:+ s)
    (hskip : skipLead s = (behind? delimiter t).elim [] skipLead) :
    Leaves s ((behind? delimiter t).elim (.done []) .again) := by
  cases hbehind : behind? delimiter t with
  | none =>
    rw [hbehind] at hskip
    exact .done List.nil_suffix atStart_nil hskip
  | some rest =>
    rw [hbehind] at hskip
    obtain ⟨hsuffix, hshorter⟩ := behind?_suffix hbehind
    have hpos := List.length_pos_iff.mpr hne
    have hlength := ht.length_le
    exact .again (hsuffix.trans ht) (by omega) hskip

/-- A round leaves a shorter text, of which the same is left in the end, or it is the last one. -/
theorem leaves_round (s : List Char) : Leaves s (round s) := by
  have ht : Text.skipBlanks s <:+ s := List.dropWhile_suffix _
  have hskip := skipLead_skipBlanks s
  simp only [round]
  by_cases hline : ['-', '-'] <+: Text.skipBlanks s
  · rw [if_pos hline]
    exact leaves_comment (by simp) ht (hskip.symm.trans (skipLead_of_line hline))
  rw [if_neg hline]
  by_cases hblock : ['/', '*'] <+: Text.skipBlanks s
  · rw [if_pos hblock]
    exact leaves_comment (by simp) ht (hskip.symm.trans (skipLead_of_block hblock))
  rw [if_neg hblock]
  by_cases hparen : ['('] <+: Text.skipBlanks s
  · rw [if_pos hparen]
    obtain ⟨rest, hrest⟩ := hparen
    rw [← hrest] at ht hskip ⊢
    -- the parenthesis itself is gone, so the text is shorter
    have hlength := ht.length_le
    exact .again ((List.suffix_cons '(' rest).trans ht) hlength hskip.symm
  rw [if_neg hparen]
  by_cases hsame : Text.skipBlanks s = s
  · -- the text is the same as before, so it did not begin with a blank either
    rw [if_pos hsame]
    have hblank : ∀ c ∈ s.head?, Text.isBlank c = false := by
      intro c hc
      have hhead := List.head?_dropWhile_not Text.isBlank s
      rwa [← Text.skipBlanks, hsame, hc] at hhead
    rw [hsame] at hline hblock hparen
    have hstart : AtStart s := ⟨hblank, hparen, hline, hblock⟩
    exact .done List.suffix_rfl hstart (skipLead_of_atStart hstart)
  · rw [if_neg hsame]
    have hlength := Nat.lt_of_le_of_ne ht.length_le fun heq => hsame (ht.eq_of_length heq)
    exact .again ht hlength hskip.symm

/-! ### One round after the other -/

/-- There is a last round, because every other one leaves less of the text. -/
theorem rounds_skipLead (s : List Char) : ∃ n ≤ s.length + 1, Rounds n s (skipLead s) := by
  induction hlength : s.length using Nat.strongRecOn generalizing s with
  | ind length ih =>
    have hleaves := leaves_round s
    generalize hround : round s = r at hleaves
    cases hleaves with
    | done _ _ hskip =>
      rw [hskip]
      exact ⟨1, by omega, .done hround⟩
    | @again t _ hshorter hskip =>
      obtain ⟨n, hn, hrounds⟩ := ih t.length (by omega) t rfl
      rw [hskip]
      exact ⟨n + 1, by omega, .again hround hrounds⟩

/-- Every round leaves an end of the text, and behind the last one nothing is to be skipped. -/
theorem Rounds.suffix_atStart {n : Nat} {s t : List Char} (h : Rounds n s t) :
    t <:+ s ∧ AtStart t := by
  induction h with
  | @done s t hround =>
    have hleaves := leaves_round s
    rw [hround] at hleaves
    cases hleaves with
    | done hsuffix hstart _ => exact ⟨hsuffix, hstart⟩
  | @again n s t u hround _ ih =>
    have hleaves := leaves_round s
    rw [hround] at hleaves
    cases hleaves with
    | again hsuffix _ _ => exact ⟨ih.1.trans hsuffix, ih.2⟩

/-- What is left of a text is its end. -/
theorem suffix_skipLead (s : List Char) : skipLead s <:+ s := by
  obtain ⟨_, -, hrounds⟩ := rounds_skipLead s
  exact hrounds.suffix_atStart.1

/-- Of what is left nothing more can be skipped. -/
theorem atStart_skipLead (s : List Char) : AtStart (skipLead s) := by
  obtain ⟨_, -, hrounds⟩ := rounds_skipLead s
  exact hrounds.suffix_atStart.2

/-! ### Keywords -/

/-- The text begins with the keyword, each letter of it large or small, and no ASCII letter, digit
or underscore follows. -/
def BeginsWith (keyword : String) (s : List Char) : Prop :=
  ∃ word rest, s = word ++ rest ∧
    List.Forall₂ (fun c k => c = k ∨ c = k.toLower) word keyword.toList ∧
    ∀ c ∈ rest.head?, c.isAlphanum = false ∧ c ≠ '_'

/-- The capitals are 32 code points in front of the small letters. -/
theorem toNat_toUpper (c : Char) :
    c.toUpper.toNat = if 97 ≤ c.toNat ∧ c.toNat ≤ 122 then c.toNat - 32 else c.toNat := by
  have hrange : (c.val ≥ 'a'.val ∧ c.val ≤ 'z'.val) ↔ 97 ≤ c.toNat ∧ c.toNat ≤ 122 := by
    simp only [ge_iff_le, UInt32.le_iff_toNat_le]
    rfl
  unfold Char.toUpper
  split
  · next h =>
    have hsmall := hrange.mp h
    rw [if_pos hsmall]
    -- words of 32 bits have no negative numbers, so the sum wraps around
    show (c.val + ('A'.val - 'a'.val)).toNat = c.toNat - 32
    rw [UInt32.toNat_add]
    show (c.toNat + 4294967264) % 4294967296 = _
    omega
  · next h => rw [if_neg (mt hrange.mpr h)]

/-- The small letters are 32 code points behind the capitals. -/
theorem toNat_toLower (c : Char) :
    c.toLower.toNat = if 65 ≤ c.toNat ∧ c.toNat ≤ 90 then c.toNat + 32 else c.toNat := by
  have hrange : (c.val ≥ 'A'.val ∧ c.val ≤ 'Z'.val) ↔ 65 ≤ c.toNat ∧ c.toNat ≤ 90 := by
    simp only [ge_iff_le, UInt32.le_iff_toNat_le]
    rfl
  unfold Char.toLower
  split
  · next h =>
    have hcapital := hrange.mp h
    rw [if_pos hcapital]
    show (c.val + ('a'.val - 'A'.val)).toNat = c.toNat + 32
    rw [UInt32.toNat_add]
    show (c.toNat + 32) % 4294967296 = _
    omega
  · next h => rw [if_neg (mt hrange.mpr h)]

/-- A capital is the capital of itself and of its small letter, and of nothing else. -/
theorem toUpper_eq_iff {c k : Char} (hk : ¬ k.isLower) :
    c.toUpper = k ↔ c = k ∨ c = k.toLower := by
  have hsmall : ¬ (97 ≤ k.toNat ∧ k.toNat ≤ 122) := by
    rintro ⟨hlow, hhigh⟩
    exact hk ((Bool.and_eq_true _ _).mpr ⟨decide_eq_true hlow, decide_eq_true hhigh⟩)
  simp only [← Char.toNat_inj, toNat_toUpper, toNat_toLower]
  split <;> split <;> omega

/-- A word in capitals is the keyword if each of its letters is that of the keyword, large or
small. -/
theorem map_toUpper_eq_iff {word keyword : List Char} (hk : ∀ k ∈ keyword, ¬ k.isLower) :
    word.map Char.toUpper = keyword ↔
      List.Forall₂ (fun c k => c = k ∨ c = k.toLower) word keyword := by
  induction keyword generalizing word with
  | nil => simp
  | cons k keyword ih =>
    rw [List.forall_mem_cons] at hk
    cases word with
    | nil => simp
    | cons c word =>
      rw [List.map_cons, List.cons.injEq, List.forall₂_cons, toUpper_eq_iff hk.1, ih hk.2]

/-- A keyword is found where the text begins with it. -/
theorem startsWith_iff {keyword : String} (hk : ∀ k ∈ keyword.toList, ¬ k.isLower)
    {s : List Char} : startsWith keyword s = true ↔ BeginsWith keyword s := by
  have hparts : startsWith keyword s = true ↔
      (s.take keyword.toList.length).map Char.toUpper = keyword.toList ∧
      ∀ c ∈ (s.drop keyword.toList.length).head?, c.isAlphanum = false ∧ c ≠ '_' := by
    rw [startsWith, Bool.and_eq_true, beq_iff_eq]
    cases (s.drop keyword.toList.length).head? <;> simp
  rw [hparts, map_toUpper_eq_iff hk]
  constructor
  · rintro ⟨hword, hrest⟩
    exact ⟨_, _, (List.take_append_drop _ s).symm, hword, hrest⟩
  · rintro ⟨word, rest, rfl, hword, hrest⟩
    rw [← hword.length_eq, List.take_left, List.drop_left]
    exact ⟨hword, hrest⟩

/-! ### Verbs -/

variable {v w : Verb} {keyword keyword' sql : String}

/-- Different verbs have different keywords. -/
theorem keyword?_injective (h : v.keyword? = w.keyword?) : v = w := by
  cases v <;> cases w <;> simp [keyword?] at h <;> rfl

/-- All keywords have six letters. -/
theorem length_keyword (h : v.keyword? = some keyword) : keyword.toList.length = 6 := by
  cases v <;> cases h <;> rfl

/-- The keywords are capitals. -/
theorem not_isLower_keyword (h : v.keyword? = some keyword) :
    ∀ k ∈ keyword.toList, ¬ k.isLower := by
  have hall : (keyword.toList.all fun k => !k.isLower) = true := by
    cases v <;> cases h <;> decide
  simpa using List.all_eq_true.mp hall

/-- The keywords are of one length, so a text begins with one of them at most. -/
theorem eq_of_startsWith {s : List Char} (hv : v.keyword? = some keyword)
    (hw : w.keyword? = some keyword') (h : startsWith keyword s = true)
    (h' : startsWith keyword' s = true) : v = w := by
  rw [startsWith, Bool.and_eq_true, beq_iff_eq, length_keyword hv] at h
  rw [startsWith, Bool.and_eq_true, beq_iff_eq, length_keyword hw] at h'
  obtain rfl : keyword = keyword' := String.toList_inj.mp (h.1.symm.trans h'.1)
  exact keyword?_injective (hv.trans hw.symm)

/-- The keyword of the verb of a text is found there, or there is no keyword. -/
theorem ofSql_cases (sql : String) :
    (∃ keyword, (ofSql sql).keyword? = some keyword ∧
      startsWith keyword (skipLead sql.toList) = true) ∨
    ofSql sql = .other ∧ ∀ (v : Verb) (keyword : String), v.keyword? = some keyword →
      ¬ startsWith keyword (skipLead sql.toList) = true := by
  simp only [ofSql]
  split
  · next h => exact .inl ⟨_, rfl, h⟩
  split
  · next h => exact .inl ⟨_, rfl, h⟩
  split
  · next h => exact .inl ⟨_, rfl, h⟩
  split
  · next h => exact .inl ⟨_, rfl, h⟩
  · next hselect hinsert hupdate hdelete =>
    refine .inr ⟨rfl, fun v keyword hv => ?_⟩
    -- all four keywords were looked for, and none was found
    cases v with
    | select => cases hv; exact hselect
    | insert => cases hv; exact hinsert
    | update => cases hv; exact hupdate
    | delete => cases hv; exact hdelete
    | other => cases hv

/-- Each verb is told by its keyword. -/
theorem ofSql_eq_iff (hv : v.keyword? = some keyword) :
    ofSql sql = v ↔ BeginsWith keyword (skipLead sql.toList) := by
  rw [← startsWith_iff (not_isLower_keyword hv)]
  obtain ⟨keyword', hkeyword, hfound⟩ | ⟨hother, hnone⟩ := ofSql_cases sql
  · constructor
    · rintro rfl
      obtain rfl := Option.some.inj (hkeyword.symm.trans hv)
      exact hfound
    · exact eq_of_startsWith hkeyword hv hfound
  · refine iff_of_false ?_ (hnone v keyword hv)
    rintro rfl
    rw [hother] at hv
    cases hv

/-- The rounds of skipping come to an end for every text, and leave a part of it at its end that
does not begin with anything that is skipped, so that skipping changes nothing any more.  The verb
depends on nothing else, and it is the one whose keyword that part begins with. -/
theorem ofSql_of_rounds (sql : String) :
    ∃ n rest, n ≤ sql.length + 1 ∧ Rounds n sql.toList rest ∧ skipLead sql.toList = rest ∧
      rest <:+ sql.toList ∧ AtStart rest ∧ skipLead rest = rest ∧
      (∀ other : String, skipLead other.toList = rest → ofSql other = ofSql sql) ∧
      ∀ (v : Verb) (keyword : String), v.keyword? = some keyword →
        (ofSql sql = v ↔ BeginsWith keyword rest) := by
  obtain ⟨n, hn, hrounds⟩ := rounds_skipLead sql.toList
  have hstart := atStart_skipLead sql.toList
  rw [String.length_toList] at hn
  exact ⟨n, _, hn, hrounds, rfl, suffix_skipLead sql.toList, hstart, skipLead_of_atStart hstart,
    fun other hother => ofSql_congr hother, fun v keyword hv => ofSql_eq_iff hv⟩

/-- A letter beyond ASCII may follow a keyword, but not stand in it. -/
theorem ofSql_of_rounds_beyond_ascii :
    ofSql "\u00a0(/*(*/--*/\n sElEcTé" = .select ∧ ofSql "SELECé" ≠ .select := by
  have hselect : keyword? select = some "SELECT" := rfl
  have hfound : ∀ {s}, startsWith "SELECT" s = true ↔ BeginsWith "SELECT" s :=
    startsWith_iff (not_isLower_keyword hselect)
  constructor
  · obtain ⟨-, rest, -, -, hskip, -, -, -, -, hverb⟩ :=
      ofSql_of_rounds "\u00a0(/*(*/--*/\n sElEcTé"
    obtain rfl : rest = "sElEcTé".toList := hskip.symm.trans (by decide +kernel)
    exact (hverb .select "SELECT" hselect).mpr (hfound.mp (by decide +kernel))
  · obtain ⟨-, rest, -, -, hskip, -, -, -, -, hverb⟩ := ofSql_of_rounds "SELECé"
    obtain rfl : rest = "SELECé".toList := hskip.symm.trans (by decide +kernel)
    rw [Ne, hverb .select "SELECT" hselect, ← hfound]
    decide +kernel

end SqlAssembly.Verb

import SqlAssembly.Proofs.Identifier.Dangerous

namespace SqlAssembly

/-!
# Reasons as regular expressions

A reason to refuse a name is shown as a regular expression.  Here the expression is taken at its
word: its steps are tried at every place of the text, and the edge of a word is a place with a word
character on one side only.  A reason applies exactly where its expression occurs, which for a
keyword is where a maximal run of word characters is the keyword.

* `Regex`, `Regex.Occurs` — regular expressions of the kind needed here, and where they occur;
* `Denial.regex`, `Denial.text_regex` — the expression of a reason, and the text that is shown;
* `Denial.applies_iff_occurs` — a reason applies where its expression occurs;
* `Denial.IsFirst`, `Denial.of?_eq_some_iff` — the reason that is given for a text;
* `Identifier.Refused`, `Denial.of?_ne_none_iff` — the texts that there is a reason to refuse;
* `Identifier.not_dangerous_of_not_denied` — these are the dangerous ones.
-/

/-! ### Regular expressions -/

/-- One step of a regular expression. -/
inductive Regex.Step where
  /-- The character, or one that folds to the same if case is ignored. -/
  | char (c : Char)
  /-- Blanks, any number of them. -/
  | blanks
  /-- An edge of a word. -/
  | wordEdge
  /-- The end of the text. -/
  | textEnd
  deriving DecidableEq, Repr

/-- A regular expression: steps one after the other, with or without regard to case. -/
structure Regex where
  ignoreCase : Bool
  steps : List Regex.Step

namespace Regex

/-- How a step is written. -/
def Step.text : Step → List Char
  | .char c => [c]
  | .blanks => ['\\', 's', '*']
  | .wordEdge => ['\\', 'b']
  | .textEnd => ['$']

/-- How an expression is written. -/
def text (r : Regex) : String :=
  String.ofList
    ((if r.ignoreCase then ['(', '?', 'i', ')'] else []) ++ r.steps.flatMap Step.text)

/-- The characters are the same, or fold to the same one if case is ignored. -/
def Same (ignoreCase : Bool) (c d : Char) : Prop :=
  c = d ∨ ignoreCase = true ∧ Text.fold c = Text.fold d

/-- A word character stands on one side of the place between two texts, and on one side only. -/
def AtWordEdge (before behind : List Char) : Prop :=
  before.getLast?.any Text.isWordChar ≠ behind.head?.any Text.isWordChar

/-- The steps can be taken one after the other from the place between two texts. -/
def Matches (ignoreCase : Bool) : List Step → List Char → List Char → Prop
  | [], _, _ => True
  | .char c :: steps, before, behind =>
    ∃ d rest, behind = d :: rest ∧ Same ignoreCase c d ∧
      Matches ignoreCase steps (before ++ [d]) rest
  | .blanks :: steps, before, behind =>
    ∃ blanks rest, behind = blanks ++ rest ∧ Text.allBlank blanks = true ∧
      Matches ignoreCase steps (before ++ blanks) rest
  | .wordEdge :: steps, before, behind =>
    AtWordEdge before behind ∧ Matches ignoreCase steps before behind
  | .textEnd :: steps, before, behind => behind = [] ∧ Matches ignoreCase steps before behind

/-- The expression matches at some place of the text. -/
def Occurs (r : Regex) (s : List Char) : Prop :=
  ∃ before behind, s = before ++ behind ∧ Matches r.ignoreCase r.steps before behind

/-- Capitals are matched one by one by what folds to them. -/
theorem matches_capitals {capitals : List Char} (h : ∀ c ∈ capitals, Text.fold c = c)
    {steps : List Step} {before behind : List Char} :
    Matches true (capitals.map .char ++ steps) before behind ↔
      ∃ w rest, behind = w ++ rest ∧ w.map Text.fold = capitals ∧
        Matches true steps (before ++ w) rest := by
  induction capitals generalizing before behind with
  | nil =>
    constructor
    · exact fun hsteps => ⟨[], behind, rfl, rfl, by rwa [List.append_nil]⟩
    · rintro ⟨w, rest, rfl, hw, hsteps⟩
      obtain rfl := List.map_eq_nil_iff.mp hw
      rwa [List.append_nil] at hsteps
  | cons c capitals ih =>
    rw [List.forall_mem_cons] at h
    -- a capital folds to itself, so what matches it is what folds to it
    have hsame : ∀ d, Same true c d ↔ Text.fold d = c := by
      intro d
      constructor
      · rintro (rfl | ⟨-, hfold⟩)
        · exact h.1
        · rw [← hfold, h.1]
      · exact fun hfold => .inr ⟨rfl, by rw [hfold, h.1]⟩
    constructor
    · rintro ⟨d, rest, rfl, hd, hrest⟩
      obtain ⟨w, rest, rfl, hw, hsteps⟩ := (ih h.2).mp hrest
      refine ⟨d :: w, rest, rfl, by rw [List.map_cons, (hsame d).mp hd, hw], ?_⟩
      rwa [List.append_cons]
    · rintro ⟨w, rest, rfl, hw, hsteps⟩
      obtain ⟨d, w, rfl, hd, hw⟩ := List.map_eq_cons_iff.mp hw
      refine ⟨d, w ++ rest, rfl, (hsame d).mpr hd, (ih h.2).mpr ⟨w, rest, rfl, hw, ?_⟩⟩
      rwa [← List.append_cons]

/-- In front of a word character, an edge is where no word character stands before. -/
theorem atWordEdge_cons {c : Char} (hc : Text.isWordChar c = true) (before rest : List Char) :
    AtWordEdge before (c :: rest) ↔ ∀ d ∈ before.getLast?, Text.isWordChar d = false := by
  cases hlast : before.getLast? with
  | none => simp [AtWordEdge, hlast, hc]
  | some d => simp [AtWordEdge, hlast, hc]

/-- Behind a word character, an edge is where no word character follows. -/
theorem atWordEdge_concat {c : Char} (hc : Text.isWordChar c = true) (front behind : List Char) :
    AtWordEdge (front ++ [c]) behind ↔ ∀ d ∈ behind.head?, Text.isWordChar d = false := by
  cases hhead : behind.head? with
  | none => simp [AtWordEdge, hhead, hc]
  | some d => simp [AtWordEdge, hhead, hc]

end Regex

/-! ### The expressions of the reasons -/

namespace Denial

open Regex

/-- The regular expression of a reason. -/
def regex (d : Denial) : Regex :=
  match d.keyword? with
  | none => ⟨false, [.char ';', .blanks, .textEnd]⟩
  | some keyword => ⟨true, .wordEdge :: (keyword.toList.map .char ++ [.wordEdge])⟩

/-- The pattern that is shown is the text of the expression. -/
theorem text_regex (d : Denial) : d.regex.text = d.pattern := by
  cases d <;> decide

/-- Every reason is looked at. -/
theorem mem_all (d : Denial) : d ∈ all := by
  cases d <;> decide

/-- The keyword of a reason is one of the dangerous words. -/
theorem mem_dangerousWords {d : Denial} {keyword : String} (h : d.keyword? = some keyword) :
    keyword ∈ Identifier.dangerousWords := by
  cases d
  case terminator => cases h
  all_goals
    obtain rfl := Option.some.inj h
    decide

/-- A semicolon at the end is what the first expression looks for. -/
theorem occurs_terminator (s : List Char) :
    Regex.Occurs ⟨false, [.char ';', .blanks, .textEnd]⟩ s ↔ Text.EndsStatement s := by
  constructor
  · rintro ⟨before, behind, rfl, d, rest, rfl, hd, blanks, rest, rfl, hblanks, rfl, -⟩
    obtain rfl : ';' = d := hd.resolve_right nofun
    exact ⟨before, blanks, by rw [List.append_nil], hblanks⟩
  · rintro ⟨before, blanks, rfl, hblanks⟩
    exact ⟨before, ';' :: blanks, rfl, ';', blanks, rfl, .inl rfl, blanks, [],
      by rw [List.append_nil], hblanks, rfl, trivial⟩

/-- A keyword between two edges of words is a maximal run of word characters. -/
theorem occurs_keyword {keyword : String} (hkeyword : keyword ∈ Identifier.dangerousWords)
    (s : List Char) :
    Regex.Occurs ⟨true, .wordEdge :: (keyword.toList.map .char ++ [.wordEdge])⟩ s ↔
      ∃ w, Text.IsRun Text.isWordChar w s ∧ w.map Text.fold = keyword.toList := by
  have hcapitals : ∀ k ∈ Identifier.dangerousWords,
      (k.toList.all fun c => Text.fold c == c) = true := by decide
  have hfold : ∀ c ∈ keyword.toList, Text.fold c = c := fun c hc =>
    beq_iff_eq.mp (List.all_eq_true.mp (hcapitals keyword hkeyword) c hc)
  have hmatches := fun before behind : List Char =>
    @matches_capitals _ hfold [.wordEdge] before behind
  constructor
  · rintro ⟨before, behind, rfl, hfront, hsteps⟩
    obtain ⟨w, rest, rfl, hw, hend, -⟩ := (hmatches before behind).mp hsteps
    obtain ⟨hne, hletters⟩ := Identifier.isLetter_of_isKeyword hkeyword hw
    have hword : ∀ c ∈ w, Text.isWordChar c = true := fun c hc =>
      Identifier.isWordChar_of_isLetter (hletters c hc)
    -- what folds to a capital is a letter, so the edges look outside at both ends
    refine ⟨w, ⟨hne, hword, before, rest, by rw [List.append_assoc], ?_, ?_⟩, hw⟩
    · obtain ⟨c, cs, rfl⟩ := List.exists_cons_of_ne_nil hne
      exact (atWordEdge_cons (hword c List.mem_cons_self) before _).mp hfront
    · obtain ⟨init, c, rfl⟩ := (List.eq_nil_or_concat w).resolve_left hne
      rw [List.concat_eq_append, ← List.append_assoc] at hend
      exact (atWordEdge_concat (hword c (by simp)) _ rest).mp hend
  · rintro ⟨w, ⟨hne, hword, before, rest, rfl, hfront, hend⟩, hw⟩
    refine ⟨before, w ++ rest, by rw [List.append_assoc], ?_,
      (hmatches before _).mpr ⟨w, rest, rfl, hw, ?_, trivial⟩⟩
    · obtain ⟨c, cs, rfl⟩ := List.exists_cons_of_ne_nil hne
      exact (atWordEdge_cons (hword c List.mem_cons_self) before _).mpr hfront
    · obtain ⟨init, c, rfl⟩ := (List.eq_nil_or_concat w).resolve_left hne
      rw [List.concat_eq_append, ← List.append_assoc]
      exact (atWordEdge_concat (hword c (by simp)) _ rest).mpr hend

/-- A reason applies to the texts in which its expression occurs. -/
theorem applies_iff_occurs (d : Denial) (s : List Char) :
    d.applies s = true ↔ d.regex.Occurs s := by
  unfold applies regex
  cases hkeyword : d.keyword? with
  | none =>
    dsimp only
    rw [occurs_terminator, beq_iff_eq]
    constructor
    · intro hlast
      obtain ⟨before, hbefore⟩ := List.getLast?_eq_some_iff.mp hlast
      obtain ⟨trail, htrail, hs⟩ := Text.exists_trimEnd s
      exact ⟨before, trail, by rw [hs, hbefore, ← List.append_cons], htrail⟩
    · exact Text.getLast?_trimEnd_of_endsStatement
  | some keyword =>
    dsimp only
    rw [occurs_keyword (mem_dangerousWords hkeyword), List.any_eq_true]
    simp only [Text.mem_runs_iff, Text.isKeyword, beq_iff_eq]

/-! ### The reason that is given -/

/-- The expression of the reason occurs in the text, and none of those in front of it in the list
of all reasons. -/
def IsFirst (d : Denial) (s : List Char) : Prop :=
  ∃ before behind, all = before ++ d :: behind ∧ d.regex.Occurs s ∧
    ∀ e ∈ before, ¬ e.regex.Occurs s

/-- The reason that is given is the first one whose expression occurs. -/
theorem of?_eq_some_iff {d : Denial} {s : List Char} : of? s = some d ↔ d.IsFirst s := by
  rw [of?, List.find?_eq_some_iff_append, applies_iff_occurs]
  constructor
  · rintro ⟨hd, before, behind, hall, hbefore⟩
    refine ⟨before, behind, hall, hd, fun e he => ?_⟩
    rw [← applies_iff_occurs]
    simpa using hbefore e he
  · rintro ⟨before, behind, hall, hd, hbefore⟩
    refine ⟨hd, before, behind, hall, fun e he => ?_⟩
    have hnot := hbefore e he
    rw [← applies_iff_occurs] at hnot
    simpa using hnot

/-- No reason is given if none of the expressions occurs. -/
theorem of?_eq_none_iff_not_occurs {s : List Char} :
    of? s = none ↔ ∀ d : Denial, ¬ d.regex.Occurs s := by
  rw [of?_eq_none_iff]
  constructor
  · intro h d
    rw [← applies_iff_occurs, h d (mem_all d)]
    exact Bool.false_ne_true
  · intro h d _
    rw [Bool.eq_false_iff, Ne, applies_iff_occurs]
    exact h d

end Denial

/-- There is a reason to refuse the text: nothing but blanks follows one of its semicolons, or one
of its maximal runs of word characters is a dangerous word up to case. -/
def Identifier.Refused (s : List Char) : Prop :=
  Text.EndsStatement s ∨ ∃ keyword ∈ dangerousWords,
    ∃ w, Text.IsRun Text.isWordChar w s ∧ w.map Text.fold = keyword.toList

/-- The texts with a reason are those that end a statement or have a dangerous word. -/
theorem Denial.of?_ne_none_iff {s : List Char} : of? s ≠ none ↔ Identifier.Refused s := by
  rw [Ne, of?_eq_none_iff_not_occurs, not_forall_not]
  constructor
  · rintro ⟨d, hd⟩
    unfold regex at hd
    cases hkeyword : d.keyword? with
    -- the semicolon is the one reason without a keyword
    | none =>
      rw [hkeyword] at hd
      exact .inl ((occurs_terminator s).mp hd)
    | some keyword =>
      rw [hkeyword] at hd
      have hword := mem_dangerousWords hkeyword
      exact .inr ⟨keyword, hword, (occurs_keyword hword s).mp hd⟩
  · rintro (hend | ⟨keyword, hword, hrun⟩)
    · exact ⟨.terminator, (occurs_terminator s).mpr hend⟩
    · obtain ⟨d, -, hd⟩ := Identifier.exists_denial_of_word keyword hword
      refine ⟨d, ?_⟩
      rw [regex, hd]
      exact (occurs_keyword hword s).mpr hrun

/-- The letters of a keyword between two characters that belong to no word are a run. -/
theorem Identifier.dangerous_iff_refused {s : List Char} : Dangerous s ↔ Refused s := by
  refine or_congr_right (exists_congr fun keyword => and_congr_right fun hkeyword => ?_)
  constructor
  · rintro ⟨before, w, behind, hs, hw, hbefore, hbehind⟩
    obtain ⟨hne, hletters⟩ := isLetter_of_isKeyword hkeyword hw
    have hword : ∀ c ∈ w, Text.isWordChar c = true := fun c hc =>
      isWordChar_of_isLetter (hletters c hc)
    exact ⟨w, ⟨hne, hword, before, behind, hs, hbefore, hbehind⟩, hw⟩
  · rintro ⟨w, ⟨-, -, before, behind, hs, hbefore, hbehind⟩, hw⟩
    exact ⟨before, w, behind, hs, hw, hbefore, hbehind⟩

/-- There is a reason to refuse every dangerous text. -/
theorem Identifier.not_dangerous_of_not_denied {s : List Char} (h : Denial.of? s = none) :
    ¬ Dangerous s :=
  fun hdangerous => Denial.of?_ne_none_iff.mpr (dangerous_iff_refused.mp hdangerous) h

end SqlAssembly

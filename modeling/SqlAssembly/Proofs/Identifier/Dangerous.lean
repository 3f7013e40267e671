import SqlAssembly.Proofs.ColumnExpr.CallShape
import SqlAssembly.Proofs.Identifier.Denial

namespace SqlAssembly

/-!
# Dangerous names

What makes a name dangerous, told without cutting it into words: where it ends, or what stands in
it between characters that belong to no word.  A text without letters and semicolons is not
dangerous.

* `Text.EndsStatement`, `Text.HasWord` — a semicolon at the end, and a keyword as a whole word;
* `Identifier.Dangerous` — the texts that must not be names;
* `Identifier.not_dangerous_of_no_letter` — numbers, blanks and signs are harmless.
-/

/-! ### Semicolons and words -/

namespace Text

/-- The text ends with a semicolon and nothing but blanks behind it. -/
def EndsStatement (s : List Char) : Prop :=
  ∃ before blanks, s = before ++ ';' :: blanks ∧ allBlank blanks = true

/-- The keyword stands in the text up to case, and no word character stands right before it or
right behind it. -/
def HasWord (keyword : String) (s : List Char) : Prop :=
  ∃ before w behind, s = before ++ w ++ behind ∧ w.map fold = keyword.toList ∧
    (∀ c ∈ before.getLast?, isWordChar c = false) ∧ ∀ c ∈ behind.head?, isWordChar c = false

/-- A text that ends a statement ends with the semicolon when blanks are cut off. -/
theorem getLast?_trimEnd_of_endsStatement {s : List Char} (h : EndsStatement s) :
    (trimEnd s).getLast? = some ';' := by
  obtain ⟨before, blanks, rfl, hblanks⟩ := h
  have hreverse : (before ++ ';' :: blanks).reverse = blanks.reverse ++ ';' :: before.reverse := by
    simp
  -- blanks are cut off from the end, which is the beginning of the reversed text
  have hskip : (blanks.reverse ++ ';' :: before.reverse).dropWhile isBlank
      = ';' :: before.reverse := by
    rw [List.dropWhile_append_of_pos fun c hc =>
      List.all_eq_true.mp hblanks c (List.mem_reverse.mp hc)]
    rfl
  rw [trimEnd, hreverse, hskip, List.reverse_cons, List.getLast?_concat]

end Text

/-! ### Names -/

namespace Identifier

/-- The words that must not be in a name. -/
def dangerousWords : List String :=
  ["UNION", "DROP", "DELETE", "UPDATE", "INSERT", "ALTER", "EXEC"]

/-- The text ends a statement, or holds one of the words. -/
def Dangerous (s : List Char) : Prop :=
  Text.EndsStatement s ∨ ∃ keyword ∈ dangerousWords, Text.HasWord keyword s

/-- A keyword in a text is made of letters. -/
theorem isLetter_of_isKeyword {keyword : String} (hkeyword : keyword ∈ dangerousWords)
    {w : List Char} (hw : w.map Text.fold = keyword.toList) :
    w ≠ [] ∧ ∀ c ∈ w, Text.isLetter c = true := by
  have hcapitals : ∀ k ∈ dangerousWords, k.toList ≠ [] ∧ ∀ c ∈ k.toList, c.isUpper = true := by
    simp [dangerousWords]
  obtain ⟨hne, hupper⟩ := hcapitals keyword hkeyword
  rw [← hw] at hne hupper
  refine ⟨fun hnil => hne (by rw [hnil]; rfl), fun c hc => ?_⟩
  exact Text.isLetter_of_isUpper_fold (hupper _ (List.mem_map_of_mem hc))

/-- A letter is a character of words. -/
theorem isWordChar_of_isLetter {c : Char} (h : Text.isLetter c = true) :
    Text.isWordChar c = true :=
  Grammar.isWordChar_of_isFunctionTail (by simp [Grammar.isFunctionTail, Grammar.isFunctionHead, h])

/-- Every word has a reason of its own. -/
theorem exists_denial_of_word :
    ∀ keyword ∈ dangerousWords, ∃ d ∈ Denial.all, d.keyword? = some keyword := by
  decide +kernel

/-- Without letters and semicolons no text is dangerous: every keyword has a letter. -/
theorem not_dangerous_of_no_letter {s : List Char}
    (h : ∀ c ∈ s, c ≠ ';' ∧ Text.isLetter c = false) : ¬ Dangerous s := by
  rintro (⟨before, blanks, rfl, -⟩ | ⟨keyword, hkeyword, before, w, behind, rfl, hw, -, -⟩)
  · exact (h ';' (by simp)).1 rfl
  · obtain ⟨hne, hletters⟩ := isLetter_of_isKeyword hkeyword hw
    obtain ⟨c, hc⟩ := List.exists_mem_of_ne_nil w hne
    have hno := (h c (by simp [hc])).2
    rw [hletters c hc] at hno
    cases hno

end Identifier

end SqlAssembly

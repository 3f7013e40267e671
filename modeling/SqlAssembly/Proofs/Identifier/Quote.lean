import SqlAssembly.Proofs.Identifier.Pattern
import SqlAssembly.Proofs.Sql.Token

namespace SqlAssembly.Identifier

/-!
# Quoting a name

A name is quoted as what it stands for, so its quoted form is one token that holds that name, and
there is nothing to add when it is quoted again, unless the name is empty.  The names that are not
quoted are those with a semicolon at their end or a keyword among their words, either as they are
written or between their quotes.

* `quote_eq_ok`, `quote_eq_error` — the quoted form, and the error if there is none;
* `quote_idempotent_iff` — quoting what was quoted;
* `quote_one_token` — the token of the quoted form, and the names that share it;
* `quote_refused_iff` — the names that are refused, and for which reason.
-/

open Sql

/-! ### Quoted names as they are read -/

/-- A quoted name is the quoted form of a name that is not empty. -/
theorem quotedName?_eq_some_iff {s inner : List Char} :
    quotedName? s = some inner ↔ inner ≠ [] ∧ s = Text.quoted '"' inner := by
  constructor
  · intro h
    obtain ⟨hunquote, hne⟩ := Option.filter_eq_some_iff.mp h
    exact ⟨by simpa using hne, Text.eq_quoted_of_unquote? hunquote⟩
  · rintro ⟨hne, rfl⟩
    exact quotedName?_quoted hne

/-- A text stands for itself, or for the name that it is the quoted form of. -/
theorem decode_cases (s : List Char) :
    (quotedName? s = none ∧ decode s = s) ∨
      ∃ inner, inner ≠ [] ∧ s = Text.quoted '"' inner ∧ decode s = inner := by
  cases hname : quotedName? s with
  | none => exact .inl ⟨rfl, decode_of_quotedName? hname⟩
  | some inner =>
    obtain ⟨hne, rfl⟩ := quotedName?_eq_some_iff.mp hname
    exact .inr ⟨inner, hne, rfl, decode_quoted hne⟩

/-- Two texts with the same quoted form are the same. -/
theorem quoted_injective {s t : List Char} (h : Text.quoted '"' s = Text.quoted '"' t) :
    s = t := by
  have hs := Text.unquote?_quoted '"' s
  rw [h, Text.unquote?_quoted] at hs
  exact (Option.some.inj hs).symm

/-! ### The quoted form -/

/-- The quoted form of a name is that of what it stands for. -/
theorem quote_eq_ok {name sql : String} :
    quote name = .ok sql ↔
      check name.toList = .ok () ∧ sql.toList = Text.quoted '"' (decode name.toList) := by
  -- a quoted name is left as it is, and that is the quoted form of what it stands for
  have hform : (if (quotedName? name.toList).isSome then name else quoted name).toList
      = Text.quoted '"' (decode name.toList) := by
    rcases decode_cases name.toList with ⟨hnone, hdecode⟩ | ⟨inner, hne, hname, hdecode⟩
    · rw [hnone, hdecode, if_neg (by simp), quoted, String.toList_ofList]
    · rw [hdecode, ← hname, if_pos (by rw [hname, quotedName?_quoted hne]; rfl)]
  constructor
  · intro h
    obtain ⟨⟨⟩, hcheck, h⟩ := bind_eq_ok.mp h
    obtain rfl := Except.ok.inj h
    exact ⟨hcheck, hform⟩
  · rintro ⟨hcheck, hsql⟩
    rw [quote, hcheck, String.ext_iff.mpr (hsql.trans hform.symm)]
    rfl

/-- A text is refused for what is written or, if nothing speaks against that, for what it stands
for. -/
theorem check_eq_error {s : List Char} {err : Error} :
    check s = .error err ↔ ∃ d, err = .denied (String.ofList s) d ∧
      (Denial.of? s = some d ∨ Denial.of? s = none ∧ Denial.of? (decode s) = some d) := by
  unfold check
  cases hs : Denial.of? s with
  | some d => simp [eq_comm]
  | none => cases hdecode : Denial.of? (decode s) <;> simp [eq_comm]

/-- If nothing speaks against what is written, then only against the name between its quotes. -/
theorem of?_decode_eq_some {s : List Char} (h : Denial.of? s = none) {d : Denial} :
    Denial.of? (decode s) = some d ↔
      ∃ inner, inner ≠ [] ∧ s = Text.quoted '"' inner ∧ Denial.of? inner = some d := by
  constructor
  · intro hd
    rcases decode_cases s with ⟨-, hdecode⟩ | ⟨inner, hne, hs, hdecode⟩
    · rw [hdecode, h] at hd
      cases hd
    · exact ⟨inner, hne, hs, by rwa [hdecode] at hd⟩
  · rintro ⟨inner, hne, rfl, hd⟩
    rwa [decode_quoted hne]

/-- A name is not quoted for the first reason against what is written, or else against the name
between its quotes. -/
theorem quote_eq_error {name : String} {err : Error} :
    quote name = .error err ↔ ∃ d, err = .denied name d ∧
      (Denial.of? name.toList = some d ∨ Denial.of? name.toList = none ∧
        ∃ inner, inner ≠ [] ∧ name.toList = Text.quoted '"' inner ∧
          Denial.of? inner = some d) := by
  have hquote : quote name = .error err ↔ check name.toList = .error err := by
    rw [quote, bind_eq_error]
    exact or_iff_left fun ⟨_, _, h⟩ => nomatch h
  rw [hquote, check_eq_error, String.ofList_toList]
  refine exists_congr fun d => and_congr_right fun _ => or_congr_right ?_
  exact and_congr_right fun hnone => of?_decode_eq_some hnone

/-! ### Quoting again -/

/-- Quoting a name is idempotent unless the name is empty: two quotes alone are no quoted name, so
the quoted form of the empty name is quoted once more. -/
theorem quote_idempotent_iff {name q : String} (h : quote name = .ok q) :
    quote q = .ok q ↔ name ≠ "" := by
  obtain ⟨hcheck, hq⟩ := quote_eq_ok.mp h
  constructor
  · rintro hagain rfl
    -- two quotes stand for themselves, so both are doubled between two more
    have hempty : q.toList = ['"', '"'] := hq
    obtain ⟨-, hq'⟩ := quote_eq_ok.mp hagain
    rw [hempty] at hq'
    exact absurd hq' (by decide)
  · intro hne
    -- what a name stands for is refused neither plain nor between quotes
    have hmeant : decode name.toList ≠ [] := decode_ne_nil (by simpa using hne)
    have hadmissible : Admissible (decode name.toList) := ⟨hmeant, (check_eq_ok.mp hcheck).2⟩
    rw [quote_eq_ok, hq, decode_quoted hmeant]
    exact ⟨check_quoted hadmissible, rfl⟩

/-- A name with a quote at its beginning only. -/
theorem quote_idempotent_iff_half :
    quote "\"a;b" = .ok "\"\"\"a;b\"" ∧ quote "\"\"\"a;b\"" = .ok "\"\"\"a;b\"" := by
  have hquote : quote "\"a;b" = .ok "\"\"\"a;b\"" := by decide +kernel
  exact ⟨hquote, (quote_idempotent_iff hquote).mpr (by decide)⟩

/-- The empty name is quoted, and what it is quoted as is quoted again. -/
theorem quote_empty_not_idempotent :
    quote "" = .ok "\"\"" ∧ quote "\"\"" = .ok "\"\"\"\"\"\"" :=
  ⟨by decide +kernel, by decide +kernel⟩

/-! ### The token of the quoted form -/

/-- Up to a text that does not begin with a quote, the quoted form of a name is one token.  What it
holds is the name, or the name between the quotes if it is a quoted name already.  So two names are
quoted alike only if one is the other or its quoted form. -/
theorem quote_one_token :
    (∀ name sql, quote name = .ok sql → ∃ content s, sql.toList = '"' :: s ∧
      (∀ rest, rest.head? ≠ some '"' →
        Token.read '"' (s ++ rest) = (some (.name content), rest)) ∧
      (∀ inner, inner ≠ [] → name.toList = Text.quoted '"' inner → content = inner) ∧
      ((∀ inner, inner ≠ [] → name.toList ≠ Text.quoted '"' inner) → content = name.toList)) ∧
    (∀ name other sql, quote name = .ok sql → quote other = .ok sql →
      name = other ∨ name = quoted other ∨ other = quoted name) := by
  constructor
  · intro name sql h
    obtain ⟨-, hsql⟩ := quote_eq_ok.mp h
    refine ⟨decode name.toList, Text.doubled '"' (decode name.toList) ++ ['"'], hsql,
      fun rest hrest => ?_, ?_, ?_⟩
    -- the quotes inside are doubled, so only the last one closes the name
    · have hclose := Text.closeQuote_doubled '"' (decode name.toList) hrest
      rw [Token.read, if_neg (by decide), if_pos (.inl rfl), List.append_assoc,
        List.singleton_append, hclose]
      rfl
    · intro inner hne hname
      rw [hname, decode_quoted hne]
    · intro hplain
      rcases decode_cases name.toList with ⟨-, hdecode⟩ | ⟨inner, hne, hname, -⟩
      · exact hdecode
      · exact absurd hname (hplain inner hne)
  · intro name other sql hname hother
    obtain ⟨-, hsql⟩ := quote_eq_ok.mp hname
    obtain ⟨-, hsql'⟩ := quote_eq_ok.mp hother
    have hsame : decode name.toList = decode other.toList :=
      quoted_injective (hsql.symm.trans hsql')
    -- a text that is the quoted form of another one is known by that one
    have hquoted : ∀ {x y : String}, x.toList = Text.quoted '"' y.toList → x = quoted y := by
      intro x y h
      rw [quoted, ← h, String.ofList_toList]
    -- both names stand for the same text, and each is that text or its quoted form
    rcases decode_cases name.toList with ⟨-, hd⟩ | ⟨inner, -, hinner, hd⟩
    · rcases decode_cases other.toList with ⟨-, hd'⟩ | ⟨inner', -, hinner', hd'⟩
      · exact .inl (String.ext_iff.mpr (by rw [← hd, hsame, hd']))
      · exact .inr (.inr (hquoted (by rw [hinner', ← hd', ← hsame, hd])))
    · rcases decode_cases other.toList with ⟨-, hd'⟩ | ⟨inner', -, hinner', hd'⟩
      · exact .inr (.inl (hquoted (by rw [hinner, ← hd, hsame, hd'])))
      · refine .inl (String.ext_iff.mpr ?_)
        rw [hinner, hinner', ← hd, hsame, hd']

/-- A name of two quotes, which is no quoted name, and a quoted name with a quote in it. -/
theorem quote_one_token_quotes :
    (∃ content s, "\"\"\"\"\"\"".toList = '"' :: s ∧
      Token.read '"' (s ++ "; \"".toList) = (some (.name content), "; \"".toList) ∧
      content = "\"\"".toList) ∧
    (∃ content s, "\"a\"\"b\"".toList = '"' :: s ∧
      Token.read '"' (s ++ ".c".toList) = (some (.name content), ".c".toList) ∧
      content = "a\"b".toList) ∧
    ("a\"b" = "\"a\"\"b\"" ∨ "a\"b" = quoted "\"a\"\"b\"" ∨ "\"a\"\"b\"" = quoted "a\"b") := by
  obtain ⟨hread, hsame⟩ := quote_one_token
  have hplain : quote "\"\"" = .ok "\"\"\"\"\"\"" := by decide +kernel
  have hquoted : quote "\"a\"\"b\"" = .ok "\"a\"\"b\"" := by decide +kernel
  have hbare : quote "a\"b" = .ok "\"a\"\"b\"" := by decide +kernel
  obtain ⟨content, s, hs, htoken, -, hname⟩ := hread _ _ hplain
  obtain ⟨content', s', hs', htoken', hinner, -⟩ := hread _ _ hquoted
  refine ⟨⟨content, s, hs, htoken _ (by decide), hname fun inner hne heq => ?_⟩,
    ⟨content', s', hs', htoken' _ (by decide), hinner "a\"b".toList (by decide) (by decide)⟩,
    hsame _ _ _ hbare hquoted⟩
  have hnone : quotedName? "\"\"".toList = none := by decide
  rw [heq, quotedName?_quoted hne] at hnone
  cases hnone

/-! ### The names that are refused -/

/-- A name that is one word, or empty, is refused for being a dangerous word only. -/
theorem not_refused_of_word {s : List Char} (hs : ∀ c ∈ s, Text.isWordChar c = true)
    (hwords : ∀ keyword ∈ dangerousWords, s.map Text.fold ≠ keyword.toList) : ¬ Refused s := by
  rintro (⟨before, blanks, rfl, -⟩ | ⟨keyword, hkeyword, w, hw, hfold⟩)
  · exact absurd (hs ';' (by simp)) (by decide)
  · rw [← Text.mem_runs_iff] at hw
    rcases eq_or_ne s [] with rfl | hne
    · cases hw
    · rw [Text.runs_eq_singleton hne hs, List.mem_singleton] at hw
      exact hwords keyword hkeyword (hw ▸ hfold)

/-- No word is a quoted name. -/
theorem quotedName?_of_word {s : List Char} (hs : ∀ c ∈ s, Text.isWordChar c = true) :
    quotedName? s = none := by
  cases s with
  | nil => rfl
  | cons c s =>
    refine quotedName?_cons ?_ s
    rintro rfl
    exact absurd (hs '"' List.mem_cons_self) (by decide)

/-- A name is refused exactly if, as it is written or between its quotes, it ends a statement or has
one of the words for a maximal run of word characters.  The error names the first pattern that
occurs in what is written, or else in what stands between the quotes.  A name that is one word is
only refused for being one of these words. -/
theorem quote_refused_iff :
    (∀ name, (∃ err, quote name = .error err) ↔ Refused name.toList ∨
      ∃ inner, inner ≠ [] ∧ name.toList = Text.quoted '"' inner ∧ Refused inner) ∧
    (∀ name err, quote name = .error err ↔ ∃ d : Denial, err = .denied name d ∧
      (d.IsFirst name.toList ∨ (∀ e : Denial, ¬ e.regex.Occurs name.toList) ∧
        ∃ inner, inner ≠ [] ∧ name.toList = Text.quoted '"' inner ∧ d.IsFirst inner)) ∧
    (∀ name, ∀ d : Denial, (Error.denied name d).kind = .invalidIdentifier ∧
      (Error.denied name d).message = "Invalid identifier: " ++
        ("\"" ++ name ++ "\" matches dangerous pattern `" ++ d.regex.text ++ "`")) ∧
    (∀ name : String, (∀ c ∈ name.toList, Text.isWordChar c = true) →
      (∀ keyword ∈ dangerousWords, name.toList.map Text.fold ≠ keyword.toList) →
      quote name = .ok (quoted name)) := by
  have hrefused : ∀ s, Refused s ↔ ∃ d, Denial.of? s = some d := fun s => by
    rw [← Denial.of?_ne_none_iff, Option.ne_none_iff_exists']
  refine ⟨fun name => ?_, fun name err => ?_, fun name d => ⟨rfl, ?_⟩, fun name hword hwords => ?_⟩
  · simp only [hrefused]
    constructor
    · rintro ⟨err, h⟩
      obtain ⟨d, -, hd | ⟨-, inner, hne, hname, hd⟩⟩ := quote_eq_error.mp h
      · exact .inl ⟨d, hd⟩
      · exact .inr ⟨inner, hne, hname, d, hd⟩
    · intro h
      -- what is written is looked at first
      cases hwritten : Denial.of? name.toList with
      | some d => exact ⟨_, quote_eq_error.mpr ⟨d, rfl, .inl hwritten⟩⟩
      | none =>
        rcases h with ⟨d, hd⟩ | ⟨inner, hne, hname, d, hd⟩
        · rw [hwritten] at hd
          cases hd
        · exact ⟨_, quote_eq_error.mpr ⟨d, rfl, .inr ⟨hwritten, inner, hne, hname, hd⟩⟩⟩
  · rw [quote_eq_error]
    simp only [Denial.of?_eq_some_iff, Denial.of?_eq_none_iff_not_occurs]
  · rw [Denial.text_regex]
    rfl
  · have hplain := quotedName?_of_word hword
    have hfine : Denial.of? name.toList = none := by
      by_contra hdenied
      exact not_refused_of_word hword hwords (Denial.of?_ne_none_iff.mp hdenied)
    rw [quote_eq_ok, decode_of_quotedName? hplain, quoted, String.toList_ofList]
    exact ⟨check_of_quotedName? hplain hfine, rfl⟩

/-- A keyword within a longer word, a keyword between a point and a semicolon with a long s in it,
which is the reason although the semicolon ends the name between the quotes, and a semicolon that
ends that name only. -/
theorem quote_refused_iff_words :
    quote "updated_at" = .ok (quoted "updated_at") ∧
    quote "\"a.in\u017fert;\"" = .error (.denied "\"a.in\u017fert;\"" .insert) ∧
    quote "\"inserted;\"" = .error (.denied "\"inserted;\"" .terminator) ∧
    (∃ err, quote "\"inserted;\"" = .error err) := by
  obtain ⟨hrefused, herror, -, hword⟩ := quote_refused_iff
  have hinner : "\"inserted;\"".toList = Text.quoted '"' "inserted;".toList := by decide
  have hwritten : Denial.of? "\"inserted;\"".toList = none := by decide +kernel
  have hmeant : Denial.of? "inserted;".toList = some .terminator := by decide +kernel
  have hletters : "updated_at".toList.all Text.isWordChar = true := by decide +kernel
  refine ⟨hword _ (List.all_eq_true.mp hletters) (by decide +kernel), ?_, ?_, ?_⟩
  · exact (herror _ _).mpr ⟨.insert, rfl, .inl (Denial.of?_eq_some_iff.mp (by decide +kernel))⟩
  · exact (herror _ _).mpr ⟨.terminator, rfl, .inr
      ⟨Denial.of?_eq_none_iff_not_occurs.mp hwritten, "inserted;".toList, by decide, hinner,
        Denial.of?_eq_some_iff.mp hmeant⟩⟩
  · exact (hrefused _).mpr (.inr ⟨"inserted;".toList, by decide, hinner,
      Denial.of?_ne_none_iff.mp (by rw [hmeant]; nofun)⟩)

end SqlAssembly.Identifier

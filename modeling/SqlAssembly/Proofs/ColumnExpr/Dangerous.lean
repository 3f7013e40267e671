import SqlAssembly.Proofs.ColumnExpr.Contained
import SqlAssembly.Proofs.ColumnExpr.Reread
import SqlAssembly.Proofs.Identifier.Pattern

namespace SqlAssembly

/-!
# No dangerous name in quoted text

Every name of a quoted text, and every word outside of quotes, is told by the tokens of the text.
However a name was written, plain or between quotes, and however deep it stands in the arguments of
calls, it is not dangerous.

* `Sql.Safe` — no name and no word among the tokens is dangerous;
* `QualifiedName.safe_sql`, `ColumnExpr.safe_sql` — the SQL text of names and expressions;
* `no_dangerous_identifier` — what quoting a column, a table or a name gives.
-/

open Sql

/-! ### Tokens without dangerous names -/

namespace Sql

/-- No name between quotes, with the quotes inside halved, is dangerous, and no word outside of
quotes. -/
def Safe (ts : List Token) : Prop :=
  ∀ s, .name s ∈ ts ∨ .word s ∈ ts → ¬ Identifier.Dangerous s

namespace Safe

variable {ts us : List Token}

theorem nil : Safe [] := by
  rintro s (h | h) <;> cases h

/-- A name between quotes is safe if it is not dangerous. -/
theorem name {s : List Char} (h : ¬ Identifier.Dangerous s) : Safe [.name s] := by
  rintro t (ht | ht)
  · obtain rfl := Token.name.inj (List.mem_singleton.mp ht)
    exact h
  · cases List.mem_singleton.mp ht

theorem word {s : List Char} (h : ¬ Identifier.Dangerous s) : Safe [.word s] := by
  rintro t (ht | ht)
  · cases List.mem_singleton.mp ht
  · obtain rfl := Token.word.inj (List.mem_singleton.mp ht)
    exact h

theorem symbol (c : Char) : Safe [.symbol c] := by
  rintro t (ht | ht) <;> cases List.mem_singleton.mp ht

/-- A string is no name, whatever it contains. -/
theorem string (s : List Char) : Safe [.string s] := by
  rintro t (ht | ht) <;> cases List.mem_singleton.mp ht

/-- Safe tokens may stand behind safe ones. -/
theorem append (ht : Safe ts) (hu : Safe us) : Safe (ts ++ us) := by
  intro s h
  rw [List.mem_append, List.mem_append] at h
  rcases h with (h | h) | (h | h)
  · exact ht s (.inl h)
  · exact hu s (.inl h)
  · exact ht s (.inr h)
  · exact hu s (.inr h)

/-- Safe texts may stand between others, as the points and commas do. -/
theorem intercalate {sep : List Token} (hsep : Safe sep) {tss : List (List Token)}
    (h : ∀ ts ∈ tss, Safe ts) : Safe (sep.intercalate tss) := by
  induction tss with
  | nil => exact nil
  | cons ts tss ih =>
    rw [List.forall_mem_cons] at h
    cases tss with
    | nil =>
      rw [List.intercalate_singleton]
      exact h.1
    | cons us tss =>
      rw [List.intercalate_cons_cons]
      exact (h.1.append hsep).append (ih h.2)

end Safe

end Sql

/-! ### Names -/

/-- Whatever is read is not dangerous, since it was not refused. -/
theorem Identifier.Admissible.not_dangerous {name : List Char} (h : Admissible name) :
    ¬ Dangerous name :=
  not_dangerous_of_not_denied h.not_denied

/-- An alias is safe if its name was read. -/
theorem safe_aliasSql {alias? : Option String}
    (h : ∀ name ∈ alias?, Identifier.Admissible name.toList) :
    Safe (tokens (aliasSql alias?).toList) := by
  cases alias? with
  | none =>
    rw [aliasSql, String.toList_empty, tokens_nil]
    exact .nil
  | some name =>
    -- the word AS is a word of the text too
    have has : Safe [.word ['A', 'S']] :=
      .word (Identifier.not_dangerous_of_not_denied (by decide +kernel))
    rw [toList_aliasSql_some]
    show Safe (tokens (" AS ".toList ++ Text.quoted '"' name.toList))
    rw [Grammar.tokens_alias]
    exact has.append (.name (h name rfl).not_dangerous)

/-- The SQL text of a qualified name that was read is safe. -/
theorem QualifiedName.safe_sql {n : Nat} {q : QualifiedName} (h : q.Admissible n) :
    Safe (tokens q.sql.toList) := by
  -- the tokens of the path and of the alias are told apart by a blank
  have hpath : Closed (['.'].intercalate ((q.parts.map String.toList).map (Text.quoted '"'))) := by
    refine Closed.intercalate (by decide) (delimited_cons [] (by decide)) fun x hx => ?_
    obtain ⟨name, -, rfl⟩ := List.mem_map.mp hx
    intro quote
    simp
  have htail := Grammar.delimited_of_isAlias (Grammar.isAlias_aliasSql q.alias?)
  rw [toList_sql, tokens_append hpath htail, Grammar.tokens_path]
  refine (Safe.intercalate (.symbol '.') fun ts hts => ?_).append (safe_aliasSql h.alias?)
  obtain ⟨name, hname, rfl⟩ := List.mem_map.mp hts
  obtain ⟨part, hpart, rfl⟩ := List.mem_map.mp hname
  exact .name (h.parts part hpart).not_dangerous

/-! ### Column expressions -/

/-- Digits are not dangerous: they have no letters. -/
theorem Grammar.not_dangerous_of_isDigits {s : List Char} (h : IsDigits s) :
    ¬ Identifier.Dangerous s := by
  refine Identifier.not_dangerous_of_no_letter fun c hc => ?_
  have htail : isFunctionTail c = true := by simp [isFunctionTail, h.2 c hc]
  -- no digit is a letter or a semicolon, as is checked character by character
  have : (!c.isDigit || (c != ';' && !Text.isLetter c)) = true :=
    of_isFunctionTail (p := fun c => !c.isDigit || (c != ';' && !Text.isLetter c))
      (by decide) (by decide) (by decide) htail
  simpa [h.2 c hc] using this

/-- A number is safe. -/
theorem Grammar.safe_of_isNumber {s : List Char} (h : IsNumber s) : Safe (tokens s) := by
  obtain ⟨sign, whole, hsign, hwhole, hs⟩ := h
  have hword : ∀ digits, IsDigits digits → Safe (tokens digits) := by
    intro digits hdigits
    rw [tokens_of_isDigits hdigits]
    exact .word (not_dangerous_of_isDigits hdigits)
  -- a minus is a token of its own, whatever follows it
  have hminus : ∀ r : List Char, Safe (tokens r) → Safe (tokens (sign ++ r)) := by
    intro r hr
    rcases hsign with rfl | rfl
    · exact hr
    · show Safe (tokens ('-' :: r))
      rw [tokens_symbol r (by decide)]
      exact (Safe.symbol '-').append hr
  rcases hs with rfl | ⟨places, hplaces, rfl⟩
  · exact hminus _ (hword whole hwhole)
  · refine hminus _ ?_
    have hclosed : Closed whole := by
      intro q
      simp [tokens_of_isDigits hwhole]
    rw [tokens_append hclosed (delimited_cons _ (by decide)), tokens_symbol _ (by decide)]
    exact (hword whole hwhole).append ((Safe.symbol '.').append (hword places hplaces))

/-- A literal is safe.  A string may contain any word, but it is no name. -/
theorem Argument.safe_of_isLiteral {s : List Char} (h : isLiteral s = true) : Safe (tokens s) := by
  rw [isLiteral, Bool.or_eq_true] at h
  rcases h with hnumber | hstring
  · exact Grammar.safe_of_isNumber (Grammar.isNumber_of_isNumber hnumber)
  · obtain ⟨content, hcontent⟩ := Option.isSome_iff_exists.mp hstring
    rw [Text.eq_quoted_of_unquote? hcontent, tokens_string]
    exact .string content

mutual

/-- No name in the SQL text of an expression is dangerous. -/
theorem ColumnExpr.safe_sql (e : ColumnExpr) (h : e.Admissible) : Safe (tokens e.sql.toList) := by
  cases e with
  | star =>
    show Safe (tokens ['*'])
    rw [tokens_symbol [] (by decide), tokens_nil]
    exact .symbol '*'
  | column name => exact QualifiedName.safe_sql h
  | call function arguments alias? =>
    obtain ⟨hfunction, harguments, halias⟩ := h
    have hgenerates := Argument.generates_sqls arguments harguments
    rw [ColumnExpr.toList_sql_call, Grammar.tokens_call hfunction.isFunctionName fun x hx =>
      (Grammar.harmless_of_generates (hgenerates x hx)).closed]
    -- the name of the function, the arguments between parentheses, and the alias
    have hname : Safe [.word function.toList] :=
      .word (Identifier.not_dangerous_of_not_denied hfunction.not_denied)
    have hlist : Safe ([.symbol ','].intercalate
        (((Argument.sqls arguments).map String.toList).map tokens)) := by
      refine Safe.intercalate (.symbol ',') fun ts hts => ?_
      obtain ⟨x, hx, rfl⟩ := List.mem_map.mp hts
      exact Argument.safe_sqls arguments harguments x hx
    have hwrapped := (Safe.symbol '(').append (hlist.append (Safe.symbol ')'))
    exact hname.append (hwrapped.append (safe_aliasSql halias))

/-- The same for an argument. -/
theorem Argument.safe_sql (a : Argument) (h : a.Admissible) : Safe (tokens a.sql.toList) := by
  cases a with
  | literal text => exact Argument.safe_of_isLiteral h
  | expr e => exact ColumnExpr.safe_sql e h

/-- The same for arguments, one by one. -/
theorem Argument.safe_sqls (arguments : List Argument) (h : Argument.AllAdmissible arguments) :
    ∀ x ∈ (Argument.sqls arguments).map String.toList, Safe (tokens x) := by
  cases arguments with
  | nil => nofun
  | cons a rest =>
    rw [Argument.sqls, List.map_cons, List.forall_mem_cons]
    exact ⟨Argument.safe_sql a h.1, Argument.safe_sqls rest h.2⟩

end

/-! ### Quoting -/

/-- What quoting a single name gives is one name between quotes, and it is not dangerous. -/
theorem Identifier.safe_quote {name sql : String} (h : quote name = .ok sql) :
    Safe (tokens sql.toList) := by
  obtain ⟨⟨⟩, hcheck, h⟩ := bind_eq_ok.mp h
  obtain ⟨hwritten, hmeant⟩ := check_eq_ok.mp hcheck
  obtain rfl := Except.ok.inj h
  -- a quoted name stays as it is, so what counts is the name that it stands for
  split
  · next hname =>
    obtain ⟨inner, hinner⟩ := Option.isSome_iff_exists.mp hname
    obtain ⟨hunquote, -⟩ := Option.filter_eq_some_iff.mp hinner
    rw [decode, hinner, Option.getD_some] at hmeant
    rw [Text.eq_quoted_of_unquote? hunquote, tokens_name]
    exact .name (not_dangerous_of_not_denied hmeant)
  · rw [quoted, String.toList_ofList, tokens_name]
    exact .name (not_dangerous_of_not_denied hwritten)

/-- Quoting a column, a table or a single name never gives a text with a dangerous name in it: every
name between quotes, with the quotes inside halved, and every function name, at any depth. -/
theorem no_dangerous_identifier :
    (∀ expr sql, quoteColumn expr = .ok sql → Safe (tokens sql.toList)) ∧
    (∀ expr sql, QualifiedName.quoteTable expr = .ok sql → Safe (tokens sql.toList)) ∧
    (∀ name sql, Identifier.quote name = .ok sql → Safe (tokens sql.toList)) := by
  refine ⟨fun expr sql h => ?_, fun expr sql h => ?_, fun name sql h => Identifier.safe_quote h⟩
  · obtain ⟨e, he, rfl⟩ := map_eq_ok.mp h
    exact ColumnExpr.safe_sql e (admissible_of_parse.1 expr.toList e he)
  · obtain ⟨q, hq, rfl⟩ := map_eq_ok.mp h
    exact QualifiedName.safe_sql (QualifiedName.admissible_of_parse hq)

/-- Names that only look dangerous: a word within a longer one, semicolons inside, quotes between
quotes; and a word in a literal, which is no name. -/
theorem no_dangerous_identifier_lookalikes :
    Safe (tokens "F(G(\"dropped\".\"a;b\", 'DROP;')) AS \"\"\"exec_2\"\"\"".toList) ∧
    Safe (tokens "\"s\".\"u;n;i;o;n\" AS \"t\"".toList) ∧
    Safe (tokens "\"\"\"upd\"\"ate\"".toList) := by
  have hcolumn : quoteColumn "f(g(dropped.\"a;b\", 'DROP;')) as \"\"\"\"\"\"\"exec_2\"\"\"\"\"\"\""
      = .ok "F(G(\"dropped\".\"a;b\", 'DROP;')) AS \"\"\"exec_2\"\"\"" := by decide +kernel
  have htable : QualifiedName.quoteTable "s.\"u;n;i;o;n\" t"
      = .ok "\"s\".\"u;n;i;o;n\" AS \"t\"" := by decide +kernel
  have hname : Identifier.quote "\"upd\"ate" = .ok "\"\"\"upd\"\"ate\"" := by decide +kernel
  obtain ⟨hcolumns, htables, hnames⟩ := no_dangerous_identifier
  exact ⟨hcolumns _ _ hcolumn, htables _ _ htable, hnames _ _ hname⟩

end SqlAssembly

import SqlAssembly.Proofs.Json.Leaf

namespace SqlAssembly.Json

/-!
# Reading a written document

A JSON value comes back from its text, if the text says all of it: there are no doubles in it, and
its integers are read exactly.

* `Node.spell`, `Node.ofTokens?_spell` — a document is built from its own tokens;
* `Spelled` — a text is read as a list of tokens wherever it stands;
* `Exact`, `parse_render` — the values that are read back, and that they are.
-/

/-! ### Building a document from its tokens -/

namespace Node

mutual

/-- The tokens of a document. -/
def spell : Node → List Token
  | .null => [.null]
  | .bool b => [.bool b]
  | .number n => [.number n]
  | .text units => [.text units]
  | .array items => .openArray :: (spellItems items ++ [.closeArray])
  | .object members => .openObject :: (spellMembers members ++ [.closeObject])

/-- The tokens of the items between commas. -/
def spellItems : List Node → List Token
  | [] => []
  | [v] => spell v
  | v :: w :: rest => spell v ++ .comma :: spellItems (w :: rest)

/-- The names and tokens of the members between commas. -/
def spellMembers : List (List TextUnit × Node) → List Token
  | [] => []
  | [(name, v)] => .text name :: .colon :: spell v
  | (name, v) :: m :: rest =>
    .text name :: .colon :: (spell v ++ .comma :: spellMembers (m :: rest))

end

/-- The first item of an array is built like every other one. -/
theorem foldlM_item (v : Node) (rest done : List Node) (stack : List Frame) (ts : List Token) :
    (spellItems (v :: rest) ++ ts).foldlM Builder.step ⟨.array done :: stack, .item⟩ =
      (spellItems (v :: rest) ++ ts).foldlM Builder.step ⟨.array done :: stack, .value⟩ := by
  cases rest <;> cases v <;> rfl

/-- The first member of an object is built like every other one. -/
theorem foldlM_member (m : List TextUnit × Node) (rest done : List (List TextUnit × Node))
    (stack : List Frame) (ts : List Token) :
    (spellMembers (m :: rest) ++ ts).foldlM Builder.step ⟨.object done :: stack, .first⟩ =
      (spellMembers (m :: rest) ++ ts).foldlM Builder.step ⟨.object done :: stack, .name⟩ := by
  cases rest <;> rfl

mutual

/-- The tokens of a document are consumed for it, whatever is still open around it. -/
theorem foldlM_spell (v : Node) (stack : List Frame) (ts : List Token) :
    (v.spell ++ ts).foldlM Builder.step ⟨stack, .value⟩ =
      ts.foldlM Builder.step ⟨stack, .after v⟩ := by
  match v with
  | .null | .bool _ | .number _ | .text _ => rfl
  | .array [] | .object [] => rfl
  | .array (v :: rest) =>
    have hopen : (Node.spell (.array (v :: rest)) ++ ts).foldlM Builder.step ⟨stack, .value⟩ =
        (spellItems (v :: rest) ++ .closeArray :: ts).foldlM Builder.step
          ⟨.array [] :: stack, .item⟩ := by
      rw [spell, List.cons_append, List.append_assoc]
      rfl
    rw [hopen, foldlM_item, foldlM_spellItems (v :: rest) [] stack ts (List.cons_ne_nil _ _)]
    rfl
  | .object (m :: rest) =>
    have hopen : (Node.spell (.object (m :: rest)) ++ ts).foldlM Builder.step ⟨stack, .value⟩ =
        (spellMembers (m :: rest) ++ .closeObject :: ts).foldlM Builder.step
          ⟨.object [] :: stack, .first⟩ := by
      rw [spell, List.cons_append, List.append_assoc]
      rfl
    rw [hopen, foldlM_member, foldlM_spellMembers (m :: rest) [] stack ts (List.cons_ne_nil _ _)]
    rfl

/-- The items of an array are put behind those that are there. -/
theorem foldlM_spellItems (items done : List Node) (stack : List Frame) (ts : List Token)
    (h : items ≠ []) :
    (spellItems items ++ .closeArray :: ts).foldlM Builder.step ⟨.array done :: stack, .value⟩ =
      ts.foldlM Builder.step ⟨stack, .after (.array (done.reverse ++ items))⟩ := by
  match items with
  | [] => exact absurd rfl h
  | [v] =>
    rw [spellItems, foldlM_spell v]
    show ts.foldlM Builder.step ⟨stack, .after (.array (v :: done).reverse)⟩ = _
    rw [List.reverse_cons]
  | v :: w :: rest =>
    rw [spellItems, List.append_assoc, List.cons_append, foldlM_spell v]
    show (spellItems (w :: rest) ++ .closeArray :: ts).foldlM Builder.step
      ⟨.array (v :: done) :: stack, .value⟩ = _
    -- the item that was built is put in front of those that are there, which are in reverse order
    rw [foldlM_spellItems (w :: rest) (v :: done) stack ts (List.cons_ne_nil _ _),
      List.reverse_cons, List.append_assoc, List.singleton_append]

/-- The members of an object are put behind those that are there. -/
theorem foldlM_spellMembers (members done : List (List TextUnit × Node)) (stack : List Frame)
    (ts : List Token) (h : members ≠ []) :
    (spellMembers members ++ .closeObject :: ts).foldlM Builder.step
        ⟨.object done :: stack, .name⟩ =
      ts.foldlM Builder.step ⟨stack, .after (.object (done.reverse ++ members))⟩ := by
  match members with
  | [] => exact absurd rfl h
  | [(name, v)] =>
    show (v.spell ++ .closeObject :: ts).foldlM Builder.step
      ⟨.member done name :: stack, .value⟩ = _
    rw [foldlM_spell v]
    show ts.foldlM Builder.step ⟨stack, .after (.object ((name, v) :: done).reverse)⟩ = _
    rw [List.reverse_cons]
  | (name, v) :: m :: rest =>
    show ((v.spell ++ .comma :: spellMembers (m :: rest)) ++ .closeObject :: ts).foldlM
      Builder.step ⟨.member done name :: stack, .value⟩ = _
    rw [List.append_assoc, List.cons_append, foldlM_spell v]
    show (spellMembers (m :: rest) ++ .closeObject :: ts).foldlM Builder.step
      ⟨.object ((name, v) :: done) :: stack, .name⟩ = _
    rw [foldlM_spellMembers (m :: rest) ((name, v) :: done) stack ts (List.cons_ne_nil _ _),
      List.reverse_cons, List.append_assoc, List.singleton_append]

end

/-- A document is built from its own tokens. -/
theorem ofTokens?_spell (v : Node) : ofTokens? v.spell = some v := by
  have hfold := foldlM_spell v [] []
  rw [List.append_nil] at hfold
  rw [ofTokens?, hfold]
  rfl

end Node

/-! ### The tokens of a text -/

theorem tokens_nil : tokens [] = some [] := by rw [tokens]

/-- The first token is read from the first character that is no space. -/
theorem tokens_cons {c : Char} {s rest : List Char} {t : Token} (hc : isSpace c = false)
    (h : Token.read c s = some (t, rest)) :
    tokens (c :: s) = (tokens rest).map (t :: ·) := by
  rw [tokens, hc, if_neg Bool.false_ne_true]
  split
  · next heq =>
    obtain ⟨rfl, rfl⟩ := Prod.mk.inj (Option.some.inj (heq.symm.trans h))
    rfl
  · next heq => exact absurd (heq.symm.trans h) (Option.some_ne_none _).symm

/-- A text is read as these tokens, whatever follows that a number does not go on with. -/
def Spelled (s : List Char) (ts : List Token) : Prop :=
  ∀ rest, Delimited rest → tokens (s ++ rest) = (tokens rest).map (ts ++ ·)

theorem Spelled.nil : Spelled [] [] := by
  intro rest _
  cases htokens : tokens rest <;> simp [htokens]

/-- A text that is read as one token. -/
theorem Spelled.of_read {c : Char} {s : List Char} {t : Token} (hc : isSpace c = false)
    (h : ∀ rest, Delimited rest → Token.read c (s ++ rest) = some (t, rest)) :
    Spelled (c :: s) [t] :=
  fun rest hrest => tokens_cons hc (h rest hrest)

/-- All of a text is read. -/
theorem Spelled.tokens_eq {s : List Char} {ts : List Token} (h : Spelled s ts) :
    tokens s = some ts := by
  have hend := h [] nofun
  rwa [List.append_nil, tokens_nil, Option.map_some, List.append_nil] at hend

/-- The punctuation and its tokens. -/
inductive Mark : Char → Token → Prop
  | openObject : Mark '\x7b' .openObject
  | closeObject : Mark '\x7d' .closeObject
  | openArray : Mark '[' .openArray
  | closeArray : Mark ']' .closeArray
  | colon : Mark ':' .colon
  | comma : Mark ',' .comma

variable {c : Char} {t : Token} {s s' : List Char} {ts ts' : List Token}

/-- A number ends in front of punctuation. -/
theorem Mark.delimited (h : Mark c t) (s : List Char) : Delimited (c :: s) := by
  rintro d hd
  obtain rfl : c = d := Option.some.inj hd
  cases h <;> decide

/-- A mark is a token, whatever follows it. -/
theorem Mark.tokens_cons (h : Mark c t) (s : List Char) :
    tokens (c :: s) = (tokens s).map (t :: ·) := by
  cases h <;> exact Json.tokens_cons (by decide) rfl

/-- A mark may stand in front of what is read as tokens. -/
theorem Spelled.cons (h : Mark c t) (hs : Spelled s ts) : Spelled (c :: s) (t :: ts) := by
  intro rest hrest
  rw [List.cons_append, h.tokens_cons, hs rest hrest, Option.map_map]
  rfl

/-- Behind a text there may stand another one that begins with punctuation. -/
theorem Spelled.append (hs : Spelled s ts) (h : Mark c t) (hs' : Spelled s' ts') :
    Spelled (s ++ c :: s') (ts ++ t :: ts') := by
  intro rest hrest
  rw [List.append_assoc, List.cons_append, hs _ (h.delimited _), h.tokens_cons, hs' rest hrest,
    Option.map_map, Option.map_map]
  exact congrArg (Option.map · _) (funext fun us => by simp)

/-! ### The leaves -/

/-- The word for nothing is one token. -/
theorem Spelled.null : Spelled "null".toList [.null] :=
  .of_read (by decide) fun _ _ => rfl

/-- Either truth value is one token. -/
theorem Spelled.bool (b : Bool) : Spelled (if b then "true" else "false").toList [.bool b] := by
  cases b
  · exact .of_read (by decide) fun _ _ => rfl
  · exact .of_read (by decide) fun _ _ => rfl

/-- A text between its quotes is one token. -/
theorem Spelled.text (s : String) :
    Spelled (renderText s).toList [.text (s.toList.map TextUnit.ofChar)] := by
  have hlist : (renderText s).toList = '"' :: (s.toList.flatMap renderChar ++ ['"']) := by
    rw [renderText, String.toList_ofList, List.cons_append]
  rw [hlist]
  refine .of_read (by decide) fun rest _ => ?_
  show (readText (s.toList.flatMap renderChar ++ ['"'] ++ rest)).map _ = _
  rw [List.append_assoc, List.singleton_append, readText_rendered, Option.map_some]

/-- What begins with a minus or a digit is read as a number. -/
theorem Token.read_number {c : Char} (h : c = '-' ∨ c.isDigit = true) (s : List Char) :
    isSpace c = false ∧
    Token.read c s = (readNumber (c :: s)).map fun r => (.number r.1, r.2) := by
  obtain rfl | hdigit := h
  · exact ⟨rfl, rfl⟩
  have hne (d : Char) (hd : d.isDigit = false) : c ≠ d := by
    rintro rfl
    exact absurd hdigit (Bool.eq_false_iff.mp hd)
  -- no other token begins with a digit, and no digit is skipped
  simp [isSpace, Token.read, hne ' ' rfl, hne '\t' rfl, hne '\n' rfl, hne '\r' rfl,
    hne '\x7b' rfl, hne '\x7d' rfl, hne '[' rfl, hne ']' rfl, hne ':' rfl, hne ',' rfl, hne '"' rfl,
    hne 'n' rfl, hne 't' rfl, hne 'f' rfl]

/-- An integer is one token, since it begins with a minus or a digit. -/
theorem Spelled.int (n : Int) : Spelled (toString n).toList [.number (.ofInt n)] := by
  obtain ⟨c, s, hcs, hc⟩ : ∃ c s, (toString n).toList = c :: s ∧ (c = '-' ∨ c.isDigit = true) := by
    rw [toList_toString]
    -- the minus is the first character, or the first digit is
    by_cases hn : n < 0
    · rw [if_pos hn]
      exact ⟨'-', _, rfl, .inl rfl⟩
    · obtain ⟨d, ds, hds, hdigit⟩ := exists_toDigits n.natAbs
      rw [if_neg hn, hds]
      exact ⟨d, ds, rfl, .inr hdigit⟩
  rw [hcs]
  refine .of_read (Token.read_number hc []).1 fun rest hrest => ?_
  rw [(Token.read_number hc _).2, ← List.cons_append, ← hcs, readNumber_ofInt n hrest,
    Option.map_some]

/-! ### Values that their texts tell exactly -/

mutual

/-- There are no doubles in a value, and its integers are of 64 bits, with sign or without. -/
def Exact : Json → Prop
  | .null | .bool _ | .str _ => True
  | .int n => Int64.minValue.toInt ≤ n ∧ n < UInt64.size
  | .real _ => False
  | .arr items => ExactItems items
  | .obj members => ExactMembers members

/-- All of the items are exact. -/
def ExactItems : List Json → Prop
  | [] => True
  | v :: rest => Exact v ∧ ExactItems rest

/-- The values of all members are exact. -/
def ExactMembers : List (String × Json) → Prop
  | [] => True
  | (_, v) :: rest => Exact v ∧ ExactMembers rest

end

mutual

/-- The text of a value is that of a document which stands for the value. -/
theorem exists_node (v : Json) (h : v.Exact) :
    ∃ n : Node, Spelled v.render.toList n.spell ∧ n.value? = some v := by
  match v with
  | .null => exact ⟨.null, Spelled.null, rfl⟩
  | .bool b => exact ⟨.bool b, Spelled.bool b, rfl⟩
  | .int n => exact ⟨.number (.ofInt n), Spelled.int n, value?_ofInt h.1 h.2⟩
  | .str s =>
    refine ⟨.text (s.toList.map TextUnit.ofChar), Spelled.text s, ?_⟩
    rw [Node.value?, text?_ofChar, Option.map_some]
  | .arr items =>
    obtain ⟨ns, hspelled, hvalues⟩ := exists_items items h
    refine ⟨.array ns, ?_, by rw [Node.value?, hvalues, Option.map_some]⟩
    rw [render, String.toList_append, String.toList_append]
    exact .cons .openArray (.append hspelled .closeArray .nil)
  | .obj members =>
    -- the braces stand around the members
    obtain ⟨ns, hspelled, hvalues⟩ := exists_members members h
    refine ⟨.object ns, ?_, by rw [Node.value?, hvalues, Option.map_some]⟩
    rw [render, String.toList_append, String.toList_append]
    exact .cons .openObject (.append hspelled .closeObject .nil)

/-- The texts of the items between commas are those of documents. -/
theorem exists_items (items : List Json) (h : ExactItems items) :
    ∃ ns, Spelled (renderItems items).toList (Node.spellItems ns) ∧
      itemValues? ns = some items := by
  match items with
  | [] => exact ⟨[], .nil, rfl⟩
  | [v] =>
    obtain ⟨n, hspelled, hvalue⟩ := exists_node v h.1
    exact ⟨[n], hspelled, by simp [itemValues?, hvalue]⟩
  | v :: w :: rest =>
    obtain ⟨n, hspelled, hvalue⟩ := exists_node v h.1
    obtain ⟨_ | ⟨m, ns⟩, hrest, hvalues⟩ := exists_items (w :: rest) h.2
    · cases hvalues
    refine ⟨n :: m :: ns, ?_, ?_⟩
    · rw [renderItems, String.toList_append, String.toList_append, List.append_assoc]
      exact .append hspelled .comma hrest
    · rw [itemValues?, hvalue, hvalues]
      rfl

/-- The texts of the members between commas are those of names and documents. -/
theorem exists_members (members : List (String × Json)) (h : ExactMembers members) :
    ∃ ns, Spelled (renderMembers members).toList (Node.spellMembers ns) ∧
      memberValues? ns = some members := by
  match members with
  | [] => exact ⟨[], .nil, rfl⟩
  | [(name, v)] =>
    obtain ⟨n, hspelled, hvalue⟩ := exists_node v h.1
    refine ⟨[(name.toList.map TextUnit.ofChar, n)], ?_, ?_⟩
    · rw [renderMembers, String.toList_append, String.toList_append, List.append_assoc]
      exact .append (.text name) .colon hspelled
    · simp [memberValues?, text?_ofChar, hvalue]
  | (name, v) :: m :: rest =>
    obtain ⟨n, hspelled, hvalue⟩ := exists_node v h.1
    obtain ⟨_ | ⟨k, ns⟩, hrest, hvalues⟩ := exists_members (m :: rest) h.2
    · cases hvalues
    refine ⟨(name.toList.map TextUnit.ofChar, n) :: k :: ns, ?_, ?_⟩
    · rw [renderMembers, String.toList_append, String.toList_append, String.toList_append,
        String.toList_append, List.append_assoc, List.append_assoc, List.append_assoc]
      exact .append (.text name) .colon (.append hspelled .comma hrest)
    · rw [memberValues?, text?_ofChar, hvalue, hvalues]
      rfl

end

/-- An exact value comes back from its text. -/
theorem parse_render {v : Json} (h : v.Exact) : parse v.render = some v := by
  obtain ⟨n, hspelled, hvalue⟩ := exists_node v h
  rw [parse, Node.parse, hspelled.tokens_eq, Option.bind_some, Node.ofTokens?_spell,
    Option.bind_some, hvalue]

end SqlAssembly.Json

import SqlAssembly.Proofs.Sql.Phrase
import SqlAssembly.Query.Basic

namespace SqlAssembly.Sql

/-!
# Reading boolean conditions

A reader of the text behind WHERE, token by token.  AND binds tighter than OR, the AND of a BETWEEN
belongs to its predicate, parentheses group, and a parenthesis with SELECT behind it opens a
subquery, which is part of a predicate.

* `BoolTree`, `BoolTree.combine` — what is read; a single member stands for itself;
* `Level` — what was read between two parentheses so far;
* `Reader`, `Reader.step` — the reader, and what a token does to it;
* `readCondition`, `readWhere` — reading all tokens;
* `Inside` — tokens that do not end the predicate that they stand in;
* `Reads`, `ReadsAny` — tokens that are read as certain conjuncts or disjuncts, wherever an operand
  is expected, and how such tokens are put together.
-/

/-! ### What is read -/

/-- A condition as it is read. -/
inductive BoolTree where
  | predicate (ts : List Token)
  | negation (t : BoolTree)
  | joined (combinator : Combinator) (members : List BoolTree)

mutual

/-- Conditions are compared member by member. -/
def BoolTree.decEq : (t u : BoolTree) → Decidable (t = u)
  | .predicate ts, .predicate us => decidable_of_iff (ts = us) (by simp)
  | .negation t, .negation u =>
    have := BoolTree.decEq t u
    decidable_of_iff (t = u) (by simp)
  | .joined combinator ts, .joined combinator' us =>
    have := BoolTree.decEqAll ts us
    decidable_of_iff (combinator = combinator' ∧ ts = us) (by simp)
  | .predicate _, .negation _ | .predicate _, .joined _ _ | .negation _, .predicate _
  | .negation _, .joined _ _ | .joined _ _, .predicate _ | .joined _ _, .negation _ => isFalse nofun

@[inherit_doc BoolTree.decEq]
def BoolTree.decEqAll : (ts us : List BoolTree) → Decidable (ts = us)
  | [], [] => isTrue rfl
  | t :: ts, u :: us =>
    have := BoolTree.decEq t u
    have := BoolTree.decEqAll ts us
    decidable_of_iff (t = u ∧ ts = us) (by simp)
  | [], _ :: _ | _ :: _, [] => isFalse nofun

end

instance : DecidableEq BoolTree := BoolTree.decEq

/-- Members put together, if there are any; a single one stands for itself. -/
def BoolTree.combine (combinator : Combinator) : List BoolTree → Option BoolTree
  | [] => none
  | [t] => some t
  | ts => some (.joined combinator ts)

/-- Only no members make nothing. -/
theorem BoolTree.combine_eq_none {combinator : Combinator} {trees : List BoolTree} :
    combine combinator trees = none ↔ trees = [] := by
  cases trees with
  | nil => simp [combine]
  | cons t trees => cases trees <;> simp [combine]

/-- What was put together stands for itself. -/
theorem BoolTree.combine_toList (combinator combinator' : Combinator) (trees : List BoolTree) :
    combine combinator (combine combinator' trees).toList = combine combinator' trees := by
  cases combine combinator' trees <;> rfl

/-- The word of a keyword, in any case. -/
def Token.isKeyword (keyword : String) : Token → Bool
  | .word letters => letters.map Char.toUpper == keyword.toList
  | _ => false

/-- What was read between two parentheses so far. -/
structure Level where
  /-- The disjuncts that an OR ended. -/
  disjuncts : List BoolTree := []
  /-- The conjuncts of the disjunct behind them. -/
  conjuncts : List BoolTree := []
  /-- The number of NOTs that wait for their operand. -/
  negations : Nat := 0

namespace Level

/-- The level with a NOT that waits. -/
def negate (l : Level) : Level := { l with negations := l.negations + 1 }

/-- The level with another conjunct, behind the NOTs that wait. -/
def add (l : Level) (t : BoolTree) : Level :=
  { l with conjuncts := l.conjuncts ++ [Nat.repeat BoolTree.negation l.negations t], negations := 0 }

/-- The disjuncts, with what was read behind the last OR. -/
def alternatives (l : Level) : List BoolTree :=
  l.disjuncts ++ (BoolTree.combine .and l.conjuncts).toList

/-- The level behind an OR. -/
def alternate (l : Level) : Level := { disjuncts := l.alternatives }

/-- Everything that was read. -/
def tree? (l : Level) : Option BoolTree := BoolTree.combine .or l.alternatives

end Level

/-! ### The reader -/

/-- What the reader is in. -/
inductive Mode where
  /-- An operand is expected. -/
  | operand
  /-- An operand is expected, and a parenthesis was opened. -/
  | opened
  /-- In a predicate, inside of some parentheses, and perhaps before the AND of a BETWEEN. -/
  | predicate (ts : List Token) (depth : Nat) (between : Bool)
  /-- Behind a group. -/
  | grouped

/-- A reader: the levels around, the level it is on, and what it is in. -/
structure Reader where
  outer : List Level := []
  level : Level := {}
  mode : Mode := .operand

namespace Reader

/-- The levels, if an operand ends here. -/
def settled (r : Reader) : Option (List Level × Level) :=
  match r.mode with
  | .predicate ts 0 false => some (r.outer, r.level.add (.predicate ts))
  | .grouped => some (r.outer, r.level)
  | _ => none

/-- A token where an operand is expected. -/
def start (r : Reader) (t : Token) : Option Reader :=
  if t.isKeyword "NOT" then some { r with level := r.level.negate, mode := .operand }
  else if t = .symbol '(' then some { r with mode := .opened }
  else if t = .symbol ')' ∨ t.isKeyword "AND" ∨ t.isKeyword "OR" ∨ t.isKeyword "BETWEEN" then none
  else some { r with mode := .predicate [t] 0 false }

/-- A token behind an operand. -/
def resume (r : Reader) (t : Token) : Option Reader :=
  match r.settled with
  | none => none
  | some (outer, level) =>
    if t.isKeyword "AND" then some { outer, level }
    else if t.isKeyword "OR" then some { outer, level := level.alternate }
    else if t = .symbol ')' then
      match outer with
      | [] => none
      | l :: outer => level.tree?.map fun tree => { outer, level := l.add tree, mode := .grouped }
    else none

/-- A token in a predicate. -/
def proceed (r : Reader) (ts : List Token) (depth : Nat) (between : Bool) (t : Token) :
    Option Reader :=
  if depth = 0 ∧ t.isKeyword "BETWEEN" then
    some { r with mode := .predicate (ts ++ [t]) 0 true }
  else if depth = 0 ∧ between ∧ t.isKeyword "AND" then
    some { r with mode := .predicate (ts ++ [t]) 0 false }
  else if depth = 0 ∧ (t = .symbol ')' ∨ t.isKeyword "AND" ∨ t.isKeyword "OR") then r.resume t
  else (t.nest depth).map fun depth => { r with mode := .predicate (ts ++ [t]) depth between }

/-- The reader behind a token, unless it cannot stand there. -/
def step (r : Reader) (t : Token) : Option Reader :=
  match r.mode with
  | .operand => r.start t
  | .opened =>
    if t.isKeyword "SELECT" then some { r with mode := .predicate [.symbol '(', t] 1 false }
    else start { outer := r.level :: r.outer } t
  | .predicate ts depth between => r.proceed ts depth between t
  | .grouped => r.resume t

/-- The reader behind some tokens. -/
def run (r : Reader) : List Token → Option Reader
  | [] => some r
  | t :: ts => (r.step t).bind (run · ts)

theorem run_append (r : Reader) (ts us : List Token) :
    r.run (ts ++ us) = (r.run ts).bind (run · us) := by
  induction ts generalizing r with
  | nil => rfl
  | cons t ts ih =>
    simp only [List.cons_append, run]
    cases r.step t with
    | none => rfl
    | some r' => exact ih r'

end Reader

/-- The condition of some tokens. -/
def readCondition (ts : List Token) : Option BoolTree :=
  match (Reader.run {} ts).bind Reader.settled with
  | some ([], level) => level.tree?
  | _ => none

/-- The condition of a WHERE part; there is none in an empty text. -/
def readWhere (sql : String) : Option (Option BoolTree) :=
  match tokens sql.toList with
  | [] => some none
  | t :: ts => if t.isKeyword "WHERE" then (readCondition ts).map some else none

/-! ### Inside of a predicate -/

/-- A keyword that means something to the reader. -/
def Token.isReserved (t : Token) : Bool :=
  ["AND", "OR", "NOT", "BETWEEN", "SELECT"].any (t.isKeyword ·)

/-- A token that means nothing to the reader. -/
def Token.isNeutral (t : Token) : Bool :=
  t != .symbol '(' && t != .symbol ')' && !t.isReserved

/-- Tokens that go on with a predicate, whatever was read before. -/
def Inside (ts : List Token) : Prop :=
  ∀ outer level pre, Reader.run ⟨outer, level, .predicate pre 0 false⟩ ts
    = some ⟨outer, level, .predicate (pre ++ ts) 0 false⟩

namespace Inside

variable {ts us : List Token}

theorem nil : Inside [] := by
  intro outer level pre
  rw [List.append_nil]
  rfl

theorem append (ht : Inside ts) (hu : Inside us) : Inside (ts ++ us) := by
  intro outer level pre
  rw [Reader.run_append, ht, Option.bind_some, hu, List.append_assoc]

/-- A token that means nothing to the reader goes on with a predicate. -/
theorem neutral {t : Token} (h : t.isNeutral = true) : Inside [t] := by
  intro outer level pre
  simp only [Token.isNeutral, Token.isReserved, Bool.and_eq_true, bne_iff_ne, ne_eq,
    Bool.not_eq_true', List.any_cons, List.any_nil, Bool.or_eq_false_iff] at h
  obtain ⟨⟨hopen, hclose⟩, hand, hor, -, hbetween, -⟩ := h
  simp [Reader.run, Reader.step, Reader.proceed, Token.nest, *]

end Inside

/-- Tokens that all mean nothing to the reader go on with a predicate. -/
theorem Inside.of_forall {ts : List Token} (h : ∀ t ∈ ts, t.isNeutral = true) : Inside ts := by
  induction ts with
  | nil => exact nil
  | cons t ts ih =>
    rw [List.forall_mem_cons] at h
    exact (neutral h.1).append (ih h.2)

/-- Inside of parentheses, balanced tokens go on with a predicate. -/
theorem run_nested {ts : List Token} {d e : Nat} (h : nesting d ts = some e)
    (outer : List Level) (level : Level) (pre : List Token) :
    Reader.run ⟨outer, level, .predicate pre (d + 1) false⟩ ts
      = some ⟨outer, level, .predicate (pre ++ ts) (e + 1) false⟩ := by
  induction ts generalizing d pre with
  | nil =>
    obtain rfl := Option.some.inj h
    rw [List.append_nil]
    rfl
  | cons t ts ih =>
    obtain ⟨d', hd', hts⟩ := Option.bind_eq_some_iff.mp h
    -- no keyword means anything below the outermost parentheses
    have hstep : Reader.step ⟨outer, level, .predicate pre (d + 1) false⟩ t
        = some ⟨outer, level, .predicate (pre ++ [t]) (d' + 1) false⟩ := by
      simp [Reader.step, Reader.proceed, Token.nest_add hd' 1]
    rw [Reader.run, hstep, Option.bind_some, ih hts, List.append_assoc, List.singleton_append]

/-- Balanced tokens between parentheses go on with a predicate. -/
theorem Inside.wrap {ts : List Token} (h : Balanced ts) :
    Inside (.symbol '(' :: ts ++ [.symbol ')']) := by
  intro outer level pre
  have hopen : Reader.step ⟨outer, level, .predicate pre 0 false⟩ (.symbol '(')
      = some ⟨outer, level, .predicate (pre ++ [.symbol '(']) 1 false⟩ := by
    simp [Reader.step, Reader.proceed, Token.nest, Token.isKeyword]
  have hclose : Reader.run ⟨outer, level, .predicate (pre ++ [.symbol '('] ++ ts) 1 false⟩ [.symbol ')']
      = some ⟨outer, level, .predicate (pre ++ [.symbol '('] ++ ts ++ [.symbol ')']) 0 false⟩ := by
    simp [Reader.run, Reader.step, Reader.proceed, Token.nest]
  -- the parentheses open and close at the same depth, whatever the tokens do in between
  rw [List.cons_append, Reader.run, hopen, Option.bind_some, Reader.run_append,
    run_nested h, Option.bind_some, hclose]
  simp

/-- The AND behind a BETWEEN goes on with the predicate. -/
theorem Inside.between (low high : List Char) :
    Inside [.word ['B', 'E', 'T', 'W', 'E', 'E', 'N'], .placeholder low, .word ['A', 'N', 'D'],
      .placeholder high] := by
  intro outer level pre
  simp [Reader.run, Reader.step, Reader.proceed, Token.nest, Token.isKeyword]

/-! ### Operands -/

/-- Tokens begin with one that is no SELECT. -/
def Opening (ts : List Token) : Prop := ∃ t us, ts = t :: us ∧ t.isKeyword "SELECT" = false

theorem Opening.append {ts : List Token} (h : Opening ts) (us : List Token) : Opening (ts ++ us) := by
  obtain ⟨t, vs, rfl, ht⟩ := h
  exact ⟨t, vs ++ us, rfl, ht⟩

theorem Opening.ne_nil {ts : List Token} (h : Opening ts) : ts ≠ [] := by
  obtain ⟨t, us, rfl, -⟩ := h
  exact nofun

/-- Tokens that are read as these conjuncts, wherever an operand is expected. -/
def Reads (ts : List Token) (trees : List BoolTree) : Prop :=
  Opening ts ∧ ∀ outer level, ∃ r, Reader.run { outer, level } ts = some r ∧
    r.settled = some (outer, trees.foldl Level.add level)

/-- Tokens that are read as these disjuncts, behind those that an OR ended. -/
def ReadsAny (ts : List Token) (trees : List BoolTree) : Prop :=
  Opening ts ∧ ∀ outer disjuncts, ∃ r level, Reader.run { outer, level := { disjuncts } } ts = some r ∧
    r.settled = some (outer, level) ∧ level.alternatives = disjuncts ++ trees

/-- A predicate begins with a token that means nothing to the reader. -/
theorem Reads.predicate {t : Token} {ts : List Token} (ht : t.isNeutral = true) (hts : Inside ts) :
    Reads (t :: ts) [.predicate (t :: ts)] := by
  simp only [Token.isNeutral, Token.isReserved, Bool.and_eq_true, bne_iff_ne, ne_eq,
    Bool.not_eq_true', List.any_cons, List.any_nil, Bool.or_eq_false_iff] at ht
  obtain ⟨⟨hopen, hclose⟩, hand, hor, hnot, hbetween, hselect, -⟩ := ht
  refine ⟨⟨t, ts, rfl, hselect⟩, fun outer level => ?_⟩
  -- the first token is none of those that are looked at where an operand is expected
  have hstart : Reader.step { outer, level } t = some ⟨outer, level, .predicate [t] 0 false⟩ := by
    simp [Reader.step, Reader.start, *]
  refine ⟨⟨outer, level, .predicate (t :: ts) 0 false⟩, ?_, rfl⟩
  rw [Reader.run, hstart]
  exact hts outer level [t]

/-- A predicate may begin with a subquery. -/
theorem Reads.subquery {letters : List Char} {ts us : List Token}
    (hselect : Token.isKeyword "SELECT" (.word letters) = true)
    (hts : Balanced (.word letters :: ts)) (hus : Inside us) :
    Reads (.symbol '(' :: .word letters :: ts ++ .symbol ')' :: us)
      [.predicate (.symbol '(' :: .word letters :: ts ++ .symbol ')' :: us)] := by
  refine ⟨⟨_, _, rfl, rfl⟩, fun outer level => ?_⟩
  have hopen : Reader.step { outer, level } (.symbol '(') = some ⟨outer, level, .opened⟩ := rfl
  have hword : Reader.step ⟨outer, level, .opened⟩ (.word letters)
      = some ⟨outer, level, .predicate [.symbol '(', .word letters] 1 false⟩ := by
    simp [Reader.step, hselect]
  have hnesting : nesting 0 ts = some 0 := hts
  -- the parenthesis behind the subquery leads back to the predicate around it
  have hclose : Reader.step
      ⟨outer, level, .predicate (.symbol '(' :: .word letters :: ts) 1 false⟩ (.symbol ')')
      = some ⟨outer, level, .predicate (.symbol '(' :: .word letters :: ts ++ [.symbol ')']) 0 false⟩ := by
    simp [Reader.step, Reader.proceed, Token.nest]
  refine ⟨⟨outer, level, .predicate (.symbol '(' :: .word letters :: ts ++ .symbol ')' :: us) 0 false⟩,
    ?_, rfl⟩
  rw [List.cons_append, List.cons_append, Reader.run, hopen, Option.bind_some, Reader.run, hword,
    Option.bind_some, Reader.run_append, run_nested hnesting, Option.bind_some, Reader.run]
  show (Reader.step ⟨outer, level, .predicate (.symbol '(' :: .word letters :: ts) 1 false⟩
    (.symbol ')')).bind _ = _
  rw [hclose, Option.bind_some, hus]
  simp

/-- An operand ends at an AND, an OR or a parenthesis that closes. -/
theorem Reader.step_of_settled {r : Reader} {levels : List Level × Level}
    (h : r.settled = some levels) {t : Token}
    (ht : t = .symbol ')' ∨ t = .word ['A', 'N', 'D'] ∨ t = .word ['O', 'R']) :
    r.step t = r.resume t := by
  obtain ⟨outer, level, mode⟩ := r
  -- only two modes are settled: a predicate with nothing open, and behind a group
  cases mode with
  | operand => cases h
  | opened => cases h
  | grouped => rfl
  | predicate ts depth between =>
    cases depth with
    | succ depth => cases h
    | zero =>
      cases between with
      | true => cases h
      | false =>
        rcases ht with rfl | rfl | rfl
        · simp [step, proceed, Token.isKeyword]
        · simp [step, proceed, Token.isKeyword]
        · simp [step, proceed, Token.isKeyword]

/-- Conjuncts with an AND between them. -/
theorem Reads.and {ts us : List Token} {trees others : List BoolTree} (ht : Reads ts trees)
    (hu : Reads us others) :
    Reads (ts ++ .word ['A', 'N', 'D'] :: us) (trees ++ others) := by
  refine ⟨ht.1.append _, fun outer level => ?_⟩
  obtain ⟨r, hrun, hsettled⟩ := ht.2 outer level
  obtain ⟨r', hrun', hsettled'⟩ := hu.2 outer (trees.foldl Level.add level)
  refine ⟨r', ?_, by rw [hsettled', List.foldl_append]⟩
  have hand : r.step (.word ['A', 'N', 'D'])
      = some { outer, level := trees.foldl Level.add level } := by
    rw [Reader.step_of_settled hsettled (.inr (.inl rfl)), Reader.resume, hsettled]
    rfl
  -- the second part is read on the level that the first one left
  rw [Reader.run_append, hrun, Option.bind_some, Reader.run, hand]
  exact hrun'

/-- Operands with no NOT in front become conjuncts as they are. -/
theorem Level.foldl_add (trees : List BoolTree) (disjuncts conjuncts : List BoolTree) :
    trees.foldl Level.add { disjuncts, conjuncts }
      = { disjuncts, conjuncts := conjuncts ++ trees } := by
  induction trees generalizing conjuncts with
  | nil => simp
  | cons t trees ih =>
    rw [List.foldl_cons]
    show trees.foldl Level.add { disjuncts, conjuncts := conjuncts ++ [t] } = _
    rw [ih, List.append_assoc, List.singleton_append]

/-- Conjuncts are one disjunct. -/
theorem Reads.any {ts : List Token} {trees : List BoolTree} (h : Reads ts trees) :
    ReadsAny ts (BoolTree.combine .and trees).toList := by
  refine ⟨h.1, fun outer disjuncts => ?_⟩
  obtain ⟨r, hrun, hsettled⟩ := h.2 outer { disjuncts }
  refine ⟨r, _, hrun, hsettled, ?_⟩
  rw [Level.foldl_add, List.nil_append]
  rfl

/-- Disjuncts with an OR between them. -/
theorem ReadsAny.or {ts us : List Token} {trees others : List BoolTree} (ht : ReadsAny ts trees)
    (hu : ReadsAny us others) :
    ReadsAny (ts ++ .word ['O', 'R'] :: us) (trees ++ others) := by
  refine ⟨ht.1.append _, fun outer disjuncts => ?_⟩
  obtain ⟨r, level, hrun, hsettled, halternatives⟩ := ht.2 outer disjuncts
  obtain ⟨r', level', hrun', hsettled', halternatives'⟩ := hu.2 outer level.alternatives
  refine ⟨r', level', ?_, hsettled', by rw [halternatives', halternatives, List.append_assoc]⟩
  have hor : r.step (.word ['O', 'R']) = some { outer, level := level.alternate } := by
    rw [Reader.step_of_settled hsettled (.inr (.inr rfl)), Reader.resume, hsettled]
    rfl
  -- the second part is read behind the disjuncts of the first
  rw [Reader.run_append, hrun, Option.bind_some, Reader.run, hor]
  exact hrun'

/-- Disjuncts between parentheses are one conjunct. -/
theorem ReadsAny.group {ts : List Token} {trees : List BoolTree} (h : ReadsAny ts trees)
    {t : BoolTree} (ht : BoolTree.combine .or trees = some t) :
    Reads (.symbol '(' :: (ts ++ [.symbol ')'])) [t] := by
  refine ⟨⟨_, _, rfl, rfl⟩, fun outer level => ?_⟩
  obtain ⟨⟨first, us, rfl, hfirst⟩, hreads⟩ := h
  obtain ⟨r, inner, hrun, hsettled, halternatives⟩ := hreads (level :: outer) []
  have hopen : Reader.step { outer, level } (.symbol '(') = some ⟨outer, level, .opened⟩ := rfl
  -- the token behind the parenthesis is read on a level of its own
  have hinner : Reader.step ⟨outer, level, .opened⟩ first
      = Reader.step { outer := level :: outer } first := by
    simp [Reader.step, hfirst]
  have hclose : r.step (.symbol ')') = some ⟨outer, level.add t, .grouped⟩ := by
    rw [Reader.step_of_settled hsettled (.inl rfl), Reader.resume, hsettled]
    show inner.tree?.map _ = _
    rw [Level.tree?, halternatives, List.nil_append, ht]
    rfl
  -- behind the parenthesis the group is a conjunct of the level around it
  refine ⟨⟨outer, level.add t, .grouped⟩, ?_, rfl⟩
  rw [Reader.run, hopen, Option.bind_some, List.cons_append, Reader.run, hinner]
  rw [Reader.run] at hrun
  cases hstep : Reader.step { outer := level :: outer } first with
  | none =>
    rw [hstep] at hrun
    cases hrun
  | some r₁ =>
    rw [hstep] at hrun
    rw [Option.bind_some, Reader.run_append]
    rw [Option.bind_some] at hrun
    rw [hrun, Option.bind_some, Reader.run, hclose]
    rfl

/-- Disjuncts are read as the condition that they make together. -/
theorem ReadsAny.readCondition_eq {ts : List Token} {trees : List BoolTree} (h : ReadsAny ts trees) :
    readCondition ts = BoolTree.combine .or trees := by
  obtain ⟨r, level, hrun, hsettled, halternatives⟩ := h.2 [] []
  have hrun : Reader.run {} ts = some r := hrun
  rw [readCondition, hrun, Option.bind_some, hsettled]
  show level.tree? = _
  rw [Level.tree?, halternatives, List.nil_append]

end SqlAssembly.Sql

import Mathlib.Data.List.Induction
import SqlAssembly.Proofs.Sql.Reader

namespace SqlAssembly.Sql

/-!
# Fragments of conditions

Tokens that are a condition by themselves are read in the same way wherever an operand is expected:
what they leave there is told in pieces, operands with an OR between some of them.  Only an OR
outside of all parentheses is such a piece.

* `Piece`, `Level.putAll` — what tokens leave on the level that they stand on;
* `ReadsPieces` — tokens that leave certain pieces wherever an operand is expected;
* `HasOuterOr` — there is an OR outside of all parentheses;
* `Frame` — a reader, for every level that it may have begun on at once;
* `Frame.Follows.step`, `exists_frame` — one token, and all tokens;
* `exists_readsPieces` — a condition leaves pieces, with an OR among them exactly if it has an outer
  one.
-/

/-! ### Pieces -/

/-- What is left of tokens on the level that they stand on. -/
inductive Piece where
  | operand (t : BoolTree)
  /-- An OR that ends a disjunct. -/
  | or

/-- The piece behind NOTs that wait for it. -/
def Piece.negated (n : Nat) : Piece → Piece
  | .operand t => .operand (Nat.repeat BoolTree.negation n t)
  | .or => .or

namespace Level

/-- The level behind a piece. -/
def put (l : Level) : Piece → Level
  | .operand t => l.add t
  | .or => l.alternate

/-- The level behind some pieces. -/
def putAll (l : Level) (ps : List Piece) : Level := ps.foldl put l

@[simp] theorem putAll_append (l : Level) (ps qs : List Piece) :
    l.putAll (ps ++ qs) = (l.putAll ps).putAll qs := List.foldl_append

/-- The level with some more NOTs that wait. -/
def negateBy (l : Level) (n : Nat) : Level := { l with negations := l.negations + n }

/-- NOTs around a tree that has NOTs around it already. -/
theorem repeat_add (t : BoolTree) (m n : Nat) :
    Nat.repeat BoolTree.negation (m + n) t
      = Nat.repeat BoolTree.negation m (Nat.repeat BoolTree.negation n t) := by
  induction m with
  | zero => rw [Nat.zero_add, Nat.repeat]
  | succ m ih => rw [Nat.succ_add, Nat.repeat, Nat.repeat, ih]

/-- The NOTs that wait are taken by the next operand, and an OR forgets them. -/
theorem put_negateBy (l : Level) (n : Nat) (p : Piece) :
    (l.negateBy n).put p = l.put (p.negated n) := by
  cases p with
  | operand t =>
    simp only [put, Piece.negated, add, negateBy]
    rw [repeat_add]
  | or => rfl

/-- Disjuncts that were read before stay in front. -/
theorem putAll_disjuncts (before : List BoolTree) (l : Level) (ps : List Piece) :
    ({ l with disjuncts := before ++ l.disjuncts } : Level).putAll ps
      = { l.putAll ps with disjuncts := before ++ (l.putAll ps).disjuncts } := by
  induction ps generalizing l with
  | nil => rfl
  | cons p ps ih =>
    -- one piece only ever adds behind the disjuncts
    have hput : ({ l with disjuncts := before ++ l.disjuncts } : Level).put p
        = { l.put p with disjuncts := before ++ (l.put p).disjuncts } := by
      cases p with
      | operand t => rfl
      | or => simp only [put, alternate, alternatives, List.append_assoc]
    show (put _ p).putAll ps = _
    rw [hput, ih]
    rfl

end Level

/-! ### What pieces are read as -/

/-- What pieces are read as by themselves. -/
def Piece.alternatives (ps : List Piece) : List BoolTree := (({} : Level).putAll ps).alternatives

@[inherit_doc Piece.alternatives]
def Piece.tree? (ps : List Piece) : Option BoolTree := BoolTree.combine .or (alternatives ps)

/-- Pieces that begin and end with an operand. -/
structure Piece.Proper (ps : List Piece) : Prop where
  first : ∃ t qs, ps = .operand t :: qs
  last : ∃ t qs, ps = qs ++ [.operand t]

namespace Piece.Proper

variable {ps qs : List Piece}

/-- Two runs of proper pieces are proper together. -/
theorem append (hp : Proper ps) (hq : Proper qs) : Proper (ps ++ qs) := by
  obtain ⟨⟨t, ps', hps⟩, -⟩ := hp
  obtain ⟨-, ⟨u, qs', rfl⟩⟩ := hq
  exact ⟨⟨t, ps' ++ (qs' ++ [.operand u]), by rw [hps, List.cons_append]⟩,
    ⟨u, ps ++ qs', by rw [List.append_assoc]⟩⟩

/-- Operands alone are proper pieces. -/
theorem operands {trees : List BoolTree} (h : trees ≠ []) : Proper (trees.map .operand) := by
  constructor
  · obtain ⟨t, ts, rfl⟩ := List.exists_cons_of_ne_nil h
    exact ⟨t, ts.map .operand, rfl⟩
  -- a list that is not empty has a last operand too
  · obtain ⟨ts, t, rfl⟩ := (List.eq_nil_or_concat trees).resolve_left h
    exact ⟨t, ts.map .operand, by simp⟩

end Piece.Proper

/-- Disjuncts are never taken back. -/
theorem Level.disjuncts_ne_nil {l : Level} (h : l.disjuncts ≠ []) (ps : List Piece) :
    (l.putAll ps).disjuncts ≠ [] := by
  have hputAll := putAll_disjuncts l.disjuncts { l with disjuncts := [] } ps
  simp only [List.append_nil] at hputAll
  rw [hputAll]
  simp [h]

/-- An OR ends a disjunct, if there is an operand in front of it. -/
theorem Level.disjuncts_ne_nil_of_mem {l : Level} (h : l.conjuncts ≠ []) {ps : List Piece}
    (hor : Piece.or ∈ ps) : (l.putAll ps).disjuncts ≠ [] := by
  induction ps generalizing l with
  | nil => cases hor
  | cons p ps ih =>
    cases p with
    | operand t =>
      rcases List.mem_cons.mp hor with hor | hor
      · cases hor
      · exact ih (l := l.add t) (by simp [add]) hor
    | or =>
      -- from here on there is a disjunct, and it stays
      refine disjuncts_ne_nil (l := l.alternate) ?_ ps
      simp [alternate, alternatives, BoolTree.combine_eq_none, h]

/-- Behind an operand there is a disjunct besides those that an OR ended. -/
theorem Level.alternatives_add (l : Level) (t : BoolTree) :
    ∃ u, (l.add t).alternatives = l.disjuncts ++ [u] := by
  cases h : BoolTree.combine .and (l.add t).conjuncts with
  | none => simp [BoolTree.combine_eq_none, add] at h
  | some u => exact ⟨u, by rw [alternatives, h]; rfl⟩

/-- Proper pieces are read as something, and as an OR if one is among them. -/
theorem Piece.Proper.exists_tree {ps : List Piece} (h : Proper ps) :
    ∃ t, tree? ps = some t ∧ (Piece.or ∈ ps → ∃ members, t = .joined .or members) := by
  obtain ⟨⟨t, rest, hfirst⟩, u, qs, hlast⟩ := h
  obtain ⟨last, halternatives⟩ := (({} : Level).putAll qs).alternatives_add u
  have htree : tree? ps = BoolTree.combine .or ((({} : Level).putAll qs).disjuncts ++ [last]) := by
    rw [← halternatives, tree?, alternatives, hlast, Level.putAll_append]
    rfl
  -- with a disjunct that an OR ended, the alternatives are two at least
  rw [htree]
  cases hdisjuncts : (({} : Level).putAll qs).disjuncts with
  | cons d ds =>
    cases ds with
    | nil => exact ⟨_, rfl, fun _ => ⟨_, rfl⟩⟩
    | cons d' ds => exact ⟨_, rfl, fun _ => ⟨_, rfl⟩⟩
  | nil =>
    refine ⟨last, rfl, fun hor => ?_⟩
    -- the OR stands between the first operand and the last one
    cases qs with
    | nil => simp [hlast] at hor
    | cons p qs =>
      obtain ⟨rfl, -⟩ := List.cons.inj (hlast.symm.trans hfirst)
      rw [hlast, List.cons_append] at hor
      simp only [List.mem_cons, List.mem_append, List.not_mem_nil, or_false, reduceCtorEq,
        false_or] at hor
      have hne : (({} : Level).add t).conjuncts ≠ [] := by simp [Level.add]
      exact absurd hdisjuncts (Level.disjuncts_ne_nil_of_mem hne hor)

/-! ### Tokens that leave pieces -/

/-- Tokens that leave these pieces, wherever an operand is expected. -/
def ReadsPieces (ts : List Token) (ps : List Piece) : Prop :=
  Opening ts ∧ ∀ outer level, ∃ r, Reader.run { outer, level } ts = some r ∧
    r.settled = some (outer, level.putAll ps)

/-- Tokens that are read as conjuncts leave them as their pieces. -/
theorem Reads.pieces {ts : List Token} {trees : List BoolTree} (h : Reads ts trees) :
    ReadsPieces ts (trees.map .operand) := by
  refine ⟨h.1, fun outer level => ?_⟩
  rw [Level.putAll, List.foldl_map]
  exact h.2 outer level

namespace ReadsPieces

variable {ts us : List Token} {ps qs : List Piece}

/-- Behind an AND, pieces go on with the disjunct in front of it. -/
theorem and (ht : ReadsPieces ts ps) (hu : ReadsPieces us qs) :
    ReadsPieces (ts ++ .word ['A', 'N', 'D'] :: us) (ps ++ qs) := by
  refine ⟨ht.1.append _, fun outer level => ?_⟩
  obtain ⟨r, hrun, hsettled⟩ := ht.2 outer level
  obtain ⟨r', hrun', hsettled'⟩ := hu.2 outer (level.putAll ps)
  -- the second run begins on the level that the first one has left
  refine ⟨r', ?_, by rw [hsettled', Level.putAll_append]⟩
  have hand : r.step (.word ['A', 'N', 'D']) = some { outer, level := level.putAll ps } := by
    rw [Reader.step_of_settled hsettled (.inr (.inl rfl)), Reader.resume, hsettled]
    rfl
  rw [Reader.run_append, hrun, Option.bind_some, Reader.run, hand]
  exact hrun'

/-- Pieces are several disjuncts. -/
theorem any (h : ReadsPieces ts ps) : ReadsAny ts (Piece.alternatives ps) := by
  refine ⟨h.1, fun outer disjuncts => ?_⟩
  obtain ⟨r, hrun, hsettled⟩ := h.2 outer { disjuncts }
  refine ⟨r, _, hrun, hsettled, ?_⟩
  have hdisjuncts := Level.putAll_disjuncts disjuncts {} ps
  simp only [List.append_nil] at hdisjuncts
  rw [hdisjuncts]
  simp only [Level.alternatives, Piece.alternatives, List.append_assoc]

/-- What leaves pieces is read as what the pieces are by themselves. -/
theorem readCondition_eq (h : ReadsPieces ts ps) : readCondition ts = Piece.tree? ps :=
  h.any.readCondition_eq

end ReadsPieces

/-! ### An OR outside of all parentheses -/

/-- There is an OR outside of all parentheses. -/
def HasOuterOr (ts : List Token) : Prop :=
  ∃ before t after, ts = before ++ t :: after ∧ Balanced before ∧ t.isKeyword "OR" = true

theorem hasOuterOr_nil : ¬ HasOuterOr [] := by
  rintro ⟨before, t, after, h, -⟩
  simp at h

/-- One more token is an outer OR if everything in front of it is closed. -/
theorem hasOuterOr_append_singleton {ts : List Token} {t : Token} :
    HasOuterOr (ts ++ [t]) ↔ HasOuterOr ts ∨ (Balanced ts ∧ t.isKeyword "OR" = true) := by
  constructor
  · rintro ⟨before, u, after, h, hbefore, hu⟩
    -- the OR is the new token, or it stands in front of it
    rcases List.eq_nil_or_concat after with rfl | ⟨after, v, rfl⟩
    · obtain ⟨rfl, rfl⟩ := List.append_singleton_inj.mp h
      exact .inr ⟨hbefore, hu⟩
    · rw [List.concat_eq_append, ← List.cons_append, ← List.append_assoc] at h
      obtain ⟨rfl, -⟩ := List.append_singleton_inj.mp h
      exact .inl ⟨before, u, after, rfl, hbefore, hu⟩
  · rintro (⟨before, u, after, rfl, hbefore, hu⟩ | ⟨hts, ht⟩)
    · exact ⟨before, u, after ++ [t], by simp, hbefore, hu⟩
    · exact ⟨ts, t, [], rfl, hts, ht⟩

/-- A token is one keyword at most. -/
theorem Token.isKeyword_unique {t : Token} {k k' : String} (h : t.isKeyword k = true)
    (h' : t.isKeyword k' = true) : k = k' := by
  cases t with
  | word letters =>
    simp only [isKeyword, beq_iff_eq] at h h'
    exact String.toList_injective (h.symm.trans h')
  | _ => cases h

/-- Only parentheses open or close anything. -/
theorem Token.nest_of_ne {t : Token} (hopen : t ≠ .symbol '(') (hclose : t ≠ .symbol ')')
    (depth : Nat) : t.nest depth = some depth := by
  unfold nest
  rw [if_neg hopen, if_neg hclose]

/-- Keywords open and close nothing. -/
theorem Token.nest_of_isKeyword {t : Token} {k : String} (h : t.isKeyword k = true) (depth : Nat) :
    t.nest depth = some depth := by
  cases t with
  | word letters => rfl
  | _ => cases h

/-! ### A reader from any level -/

/-- What is inside of a mode counts as this many parentheses. -/
def Mode.depth : Mode → Nat
  | .predicate _ depth _ => depth
  | .opened => 1
  | .operand | .grouped => 0

/-- A reader, for every level that it may have begun on at once. -/
structure Frame where
  /-- The levels of the groups that were opened since. -/
  inner : List Level := []
  /-- What was left on the level of the beginning. -/
  pieces : List Piece := []
  /-- The number of NOTs that wait on the level of the beginning. -/
  pending : Nat := 0
  mode : Mode := .operand

namespace Frame

/-- The reader that began on this level, inside of the others. -/
def reader (F : Frame) (outer : List Level) (level : Level) : Reader :=
  let level := (level.putAll F.pieces).negateBy F.pending
  match F.inner with
  | [] => ⟨outer, level, F.mode⟩
  | l :: inner => ⟨inner ++ level :: outer, l, F.mode⟩

/-- The frame in another mode. -/
def become (F : Frame) (mode : Mode) : Frame := { F with mode }

/-- The frame behind a NOT. -/
def negate (F : Frame) : Frame :=
  match F.inner with
  | [] => { F with pending := F.pending + 1 }
  | l :: inner => { F with inner := l.negate :: inner }

/-- The frame behind a piece. -/
def put (F : Frame) (p : Piece) : Frame :=
  match F.inner with
  | [] => { F with pieces := F.pieces ++ [p.negated F.pending], pending := 0 }
  | l :: inner => { F with inner := l.put p :: inner }

variable (F : Frame) (outer : List Level) (level : Level)

/-- Only the mode of the reader changes. -/
theorem reader_become (mode : Mode) :
    (F.become mode).reader outer level = { F.reader outer level with mode } := by
  obtain ⟨inner, pieces, pending, _⟩ := F
  cases inner <;> rfl

@[simp] theorem inner_become (mode : Mode) : (F.become mode).inner = F.inner := rfl

@[simp] theorem pieces_become (mode : Mode) : (F.become mode).pieces = F.pieces := rfl

/-- A NOT waits on the innermost level. -/
theorem reader_negate : F.negate.reader outer level
    = { F.reader outer level with level := (F.reader outer level).level.negate } := by
  obtain ⟨inner, pieces, pending, mode⟩ := F
  cases inner <;> rfl

/-- A piece is left on the innermost level. -/
theorem reader_put (p : Piece) : (F.put p).reader outer level
    = { F.reader outer level with level := (F.reader outer level).level.put p } := by
  obtain ⟨inner, pieces, pending, mode⟩ := F
  cases inner with
  | nil =>
    show (⟨outer, (level.putAll (pieces ++ [p.negated pending])).negateBy 0, mode⟩ : Reader)
      = ⟨outer, ((level.putAll pieces).negateBy pending).put p, mode⟩
    rw [Level.put_negateBy, Level.putAll_append]
    rfl
  | cons l inner => rfl

/-- A group within is a level of its own. -/
theorem reader_cons (l : Level) (inner : List Level) :
    ({ F with inner := l :: inner } : Frame).reader outer level
      = let r := ({ F with inner } : Frame).reader outer level
        ⟨r.level :: r.outer, l, F.mode⟩ := by
  cases inner <;> rfl

@[simp] theorem mode_reader : (F.reader outer level).mode = F.mode := by
  obtain ⟨inner, pieces, pending, mode⟩ := F
  cases inner <;> rfl

@[simp] theorem length_inner_put (p : Piece) : (F.put p).inner.length = F.inner.length := by
  unfold put
  split
  · rfl
  · next h => simp [h]

@[simp] theorem length_inner_negate : F.negate.inner.length = F.inner.length := by
  unfold negate
  split
  · rfl
  · next h => simp [h]

@[simp] theorem pieces_negate : F.negate.pieces = F.pieces := by
  unfold negate
  split <;> rfl

section

variable {F} {t : BoolTree}

/-- An operand adds no OR. -/
theorem or_mem_put_operand : Piece.or ∈ (F.put (.operand t)).pieces ↔ Piece.or ∈ F.pieces := by
  unfold put
  split
  · simp [Piece.negated]
  · rfl

/-- An operand never puts an OR in front. -/
theorem head_put_operand (h : F.pieces.head? ≠ some .or) :
    (F.put (.operand t)).pieces.head? ≠ some .or := by
  unfold put
  split
  · cases hpieces : F.pieces with
    | nil => exact nofun
    | cons p ps => simpa [hpieces] using h
  · exact h

/-- An operand takes all NOTs that wait. -/
theorem last_put_operand (h : (F.put (.operand t)).inner = []) :
    (F.put (.operand t)).pending = 0 ∧
      ∃ u qs, (F.put (.operand t)).pieces = qs ++ [.operand u] := by
  unfold put at h ⊢
  split
  · exact ⟨rfl, _, _, rfl⟩
  · next hinner =>
    simp [hinner] at h

end

/-- The frame, if an operand ends here. -/
def settle : Option Frame :=
  match F.mode with
  | .predicate ts 0 false => some ((F.put (.operand (.predicate ts))).become .grouped)
  | .grouped => some F
  | _ => none

/-- Where the frame is settled, the reader is, on the levels that the frame gives. -/
theorem settled_reader : (F.reader outer level).settled
    = F.settle.map fun G => ((G.reader outer level).outer, (G.reader outer level).level) := by
  unfold Reader.settled settle
  rw [mode_reader]
  cases F.mode with
  | operand | opened | grouped => rfl
  | predicate ts depth between =>
    cases depth with
    | succ depth => rfl
    | zero =>
      cases between with
      | true => rfl
      | false =>
        have hput := (F.put (.operand (.predicate ts))).reader_become outer level .grouped
        rw [reader_put] at hput
        exact congrArg (fun r : Reader => some (r.outer, r.level)) hput.symm

/-! ### What a frame says of the tokens that were read -/

/-- The frame is where a reader stands behind these tokens. -/
structure Follows (F : Frame) (ts : List Token) : Prop where
  depth : nesting 0 ts = some (F.inner.length + F.mode.depth)
  or_iff : Piece.or ∈ F.pieces ↔ HasOuterOr ts
  first : F.pieces.head? ≠ some .or
  last : F.inner = [] → F.mode = .grouped → F.pending = 0 ∧ ∃ t qs, F.pieces = qs ++ [.operand t]

namespace Follows

variable {F} {G : Frame} {ts : List Token} {t : Token} {r : Reader}

/-- The tokens close what they open exactly if neither a group nor a predicate is open. -/
theorem balanced_iff (h : F.Follows ts) : Balanced ts ↔ F.inner.length + F.mode.depth = 0 := by
  rw [Balanced, h.depth, Option.some.injEq]

/-- One more token. -/
theorem snoc (h : F.Follows ts)
    (hdepth : t.nest (F.inner.length + F.mode.depth) = some (G.inner.length + G.mode.depth))
    (hor : Piece.or ∈ G.pieces ↔
      Piece.or ∈ F.pieces ∨ (F.inner.length + F.mode.depth = 0 ∧ t.isKeyword "OR" = true))
    (hfirst : G.pieces.head? ≠ some .or)
    (hlast : G.inner = [] → G.mode = .grouped →
      G.pending = 0 ∧ ∃ t qs, G.pieces = qs ++ [.operand t]) : G.Follows (ts ++ [t]) where
  depth := by
    rw [nesting_append, h.depth, Option.bind_some, nesting, hdepth]
    rfl
  or_iff := by rw [hor, h.or_iff, hasOuterOr_append_singleton, h.balanced_iff]
  first := hfirst
  last := hlast

/-- One more token that is no outer OR and ends no group. -/
theorem quiet (h : F.Follows ts)
    (hdepth : t.nest (F.inner.length + F.mode.depth) = some (G.inner.length + G.mode.depth))
    (hpieces : G.pieces = F.pieces)
    (hor : t.isKeyword "OR" = true → F.inner.length + F.mode.depth ≠ 0)
    (hmode : G.mode ≠ .grouped) : G.Follows (ts ++ [t]) := by
  refine h.snoc hdepth ?_ (hpieces ▸ h.first) fun _ hgrouped => absurd hgrouped hmode
  rw [hpieces]
  exact ⟨.inl, fun h => h.resolve_right fun hzero => hor hzero.2 hzero.1⟩

/-- One more keyword that is no OR. -/
theorem keyword (h : F.Follows ts) {k : String} (ht : t.isKeyword k = true) (hk : k ≠ "OR")
    (hdepth : G.inner.length + G.mode.depth = F.inner.length + F.mode.depth)
    (hpieces : G.pieces = F.pieces) (hmode : G.mode ≠ .grouped) : G.Follows (ts ++ [t]) := by
  refine h.quiet ?_ hpieces (fun hor => absurd (Token.isKeyword_unique ht hor) hk) hmode
  rw [Token.nest_of_isKeyword ht, hdepth]

/-- A token where an operand is expected. -/
theorem start (h : F.Follows ts) (hmode : F.mode = .operand)
    (hr : (F.reader [] {}).start t = some r) :
    ∃ G : Frame, G.Follows (ts ++ [t]) ∧
      ∀ outer level, (F.reader outer level).start t = some (G.reader outer level) := by
  have hdepth : F.mode.depth = 0 := by rw [hmode]; rfl
  unfold Reader.start at hr ⊢
  by_cases hnot : t.isKeyword "NOT" = true
  · refine ⟨F.negate.become .operand, h.keyword hnot (by decide) ?_ (pieces_negate F) nofun,
      fun _ _ => ?_⟩
    · rw [hdepth, inner_become, length_inner_negate]
      rfl
    · rw [if_pos hnot, reader_become, reader_negate]
  rw [if_neg hnot] at hr
  by_cases hopen : t = .symbol '('
  · subst hopen
    refine ⟨F.become .opened, h.quiet ?_ rfl nofun nofun, fun _ _ => ?_⟩
    · rw [hdepth]
      rfl
    · rw [if_neg hnot, if_pos rfl, reader_become]
  rw [if_neg hopen] at hr
  -- whatever else stands here begins a predicate
  by_cases hstop : t = .symbol ')' ∨ t.isKeyword "AND" ∨ t.isKeyword "OR" ∨ t.isKeyword "BETWEEN"
  · rw [if_pos hstop] at hr
    cases hr
  · refine ⟨F.become (.predicate [t] 0 false), h.quiet ?_ rfl ?_ nofun, fun _ _ => ?_⟩
    · have hclose : t ≠ .symbol ')' := fun hclose => hstop (.inl hclose)
      rw [hdepth, Token.nest_of_ne hopen hclose]
      rfl
    · exact fun hor => absurd (.inr (.inr (.inl hor))) hstop
    · rw [if_neg hnot, if_neg hopen, if_neg hstop, reader_become]

/-- Where an operand ends, nothing is left open but groups. -/
theorem settle (h : F.Follows ts) (hG : F.settle = some G) : G.Follows ts ∧ G.mode = .grouped := by
  unfold Frame.settle at hG
  -- an operand ends behind a predicate with nothing open, or behind a group
  split at hG
  · next us hmode =>
    cases hG
    refine ⟨⟨?_, ?_, head_put_operand h.first, fun hnil _ => last_put_operand hnil⟩, rfl⟩
    · rw [h.depth, hmode, inner_become, length_inner_put]
      rfl
    · rw [← h.or_iff]
      exact or_mem_put_operand
  · next hmode =>
    cases hG
    exact ⟨h, hmode⟩
  · cases hG

/-- A token behind an operand. -/
theorem resume (h : F.Follows ts) (hr : (F.reader [] {}).resume t = some r) :
    ∃ G : Frame, G.Follows (ts ++ [t]) ∧
      ∀ outer level, (F.reader outer level).resume t = some (G.reader outer level) := by
  unfold Reader.resume at hr ⊢
  simp only [settled_reader] at hr ⊢
  cases hS : F.settle with
  | none =>
    rw [hS] at hr
    cases hr
  | some S =>
  obtain ⟨hfollows, hmode⟩ := h.settle hS
  have hdepth : S.mode.depth = 0 := by rw [hmode]; rfl
  simp only [hS, Option.map_some] at hr ⊢
  by_cases hand : t.isKeyword "AND" = true
  · refine ⟨S.become .operand, hfollows.keyword hand (by decide) ?_ rfl Mode.noConfusion,
      fun _ _ => ?_⟩
    · rw [hdepth]
      rfl
    · rw [if_pos hand, reader_become]
  rw [if_neg hand] at hr
  by_cases hor : t.isKeyword "OR" = true
  · refine ⟨(S.put .or).become .operand, hfollows.snoc ?_ ?_ ?_ fun _ => Mode.noConfusion,
      fun _ _ => ?_⟩
    · rw [hdepth, Token.nest_of_isKeyword hor, inner_become, length_inner_put]
      rfl
    · unfold become put
      split
      · next hinner => simp [hinner, hdepth, hor, Piece.negated]
      · next hinner => simp [hinner]
    · unfold become put
      split
      · next hinner =>
        -- an operand stands in front of the OR, so the first piece stays an operand
        obtain ⟨-, u, qs, hlast⟩ := hfollows.last hinner hmode
        have hfirst := hfollows.first
        rw [hlast] at hfirst ⊢
        cases qs with
        | nil => simp
        | cons p qs => exact hfirst
      · exact hfollows.first
    · rw [if_neg hand, if_pos hor, reader_become, reader_put]
      rfl
  rw [if_neg hor] at hr
  by_cases hclose : t = .symbol ')'
  · rw [if_pos hclose] at hr
    cases hinner : S.inner with
    | nil =>
      -- the level of the beginning has nothing around it
      have houter : (S.reader [] {}).outer = [] := by
        unfold reader
        rw [hinner]
      rw [houter] at hr
      cases hr
    | cons l inner =>
    -- the group is left, and its tree is an operand of the level around it
    have hreader (outer : List Level) (level : Level) : S.reader outer level
        = let r := ({ S with inner } : Frame).reader outer level
          ⟨r.level :: r.outer, l, S.mode⟩ := by
      rw [← reader_cons, ← hinner]
    simp only [hreader] at hr ⊢
    cases htree : l.tree? with
    | none =>
      rw [htree] at hr
      cases hr
    | some tree =>
      let around : Frame := { S with inner }
      refine ⟨(around.put (.operand tree)).become .grouped,
        hfollows.snoc ?_ ?_ ?_ ?_, fun _ _ => ?_⟩
      · rw [hdepth, hinner, hclose, inner_become, length_inner_put]
        rfl
      · rw [pieces_become, or_mem_put_operand]
        simp [around, hor]
      · exact head_put_operand hfollows.first
      · exact fun hnil _ => last_put_operand hnil
      · rw [if_neg hand, if_neg hor, if_pos hclose, reader_become, reader_put]
        rfl
  · rw [if_neg hclose] at hr
    cases hr

/-- A token in a predicate. -/
theorem proceed (h : F.Follows ts) {us : List Token} {depth : Nat} {between : Bool}
    (hmode : F.mode = .predicate us depth between)
    (hr : (F.reader [] {}).proceed us depth between t = some r) :
    ∃ G : Frame, G.Follows (ts ++ [t]) ∧ ∀ outer level,
      (F.reader outer level).proceed us depth between t = some (G.reader outer level) := by
  have hdepth : F.mode.depth = depth := by rw [hmode]; rfl
  unfold Reader.proceed at hr ⊢
  -- a BETWEEN keeps the next AND for itself
  by_cases hbetween : depth = 0 ∧ t.isKeyword "BETWEEN" = true
  · obtain ⟨rfl, hkeyword⟩ := hbetween
    refine ⟨F.become (.predicate (us ++ [t]) 0 true), h.keyword hkeyword (by decide) ?_ rfl nofun,
      fun _ _ => ?_⟩
    · rw [hdepth]
      rfl
    · rw [if_pos ⟨rfl, hkeyword⟩, reader_become]
  rw [if_neg hbetween] at hr
  by_cases hand : depth = 0 ∧ between = true ∧ t.isKeyword "AND" = true
  · obtain ⟨rfl, rfl, hkeyword⟩ := hand
    refine ⟨F.become (.predicate (us ++ [t]) 0 false), h.keyword hkeyword (by decide) ?_ rfl nofun,
      fun _ _ => ?_⟩
    · rw [hdepth]
      rfl
    · rw [if_neg hbetween, if_pos ⟨rfl, rfl, hkeyword⟩, reader_become]
  rw [if_neg hand] at hr
  -- outside of parentheses these end the predicate, and are read behind it
  by_cases hend : depth = 0 ∧ (t = .symbol ')' ∨ t.isKeyword "AND" = true ∨ t.isKeyword "OR" = true)
  · rw [if_pos hend] at hr
    obtain ⟨G, hG, hreaders⟩ := h.resume hr
    refine ⟨G, hG, fun outer level => ?_⟩
    rw [if_neg hbetween, if_neg hand, if_pos hend, hreaders]
  rw [if_neg hend] at hr
  cases hnest : t.nest depth with
  | none =>
    rw [hnest] at hr
    cases hr
  | some d =>
    refine ⟨F.become (.predicate (us ++ [t]) d between), h.quiet ?_ rfl ?_ nofun, fun _ _ => ?_⟩
    · rw [hdepth, Nat.add_comm, Token.nest_add hnest, Nat.add_comm]
      rfl
    · intro hor hzero
      exact hend ⟨by omega, .inr (.inr hor)⟩
    · rw [if_neg hbetween, if_neg hand, if_neg hend, reader_become]
      rfl

/-- What a token does does not depend on the level of the beginning. -/
theorem step (h : F.Follows ts) (hr : (F.reader [] {}).step t = some r) :
    ∃ G : Frame, G.Follows (ts ++ [t]) ∧
      ∀ outer level, (F.reader outer level).step t = some (G.reader outer level) := by
  unfold Reader.step at hr ⊢
  simp only [mode_reader] at hr ⊢
  cases hmode : F.mode with
  | operand =>
    simp only [hmode] at hr ⊢
    exact h.start hmode hr
  | grouped =>
    simp only [hmode] at hr ⊢
    exact h.resume hr
  | predicate us depth between =>
    simp only [hmode] at hr ⊢
    exact h.proceed hmode hr
  | opened =>
    simp only [hmode] at hr ⊢
    have hdepth : F.mode.depth = 1 := by rw [hmode]; rfl
    by_cases hselect : t.isKeyword "SELECT" = true
    · refine ⟨F.become (.predicate [.symbol '(', t] 1 false),
        h.keyword hselect (by decide) ?_ rfl nofun, fun _ _ => ?_⟩
      · rw [hdepth]
        rfl
      · rw [if_pos hselect, reader_become]
    · -- the token is read on a level of its own
      let inside : Frame := ({ F with inner := {} :: F.inner } : Frame).become .operand
      have hinside : inside.Follows ts := by
        refine ⟨?_, h.or_iff, h.first, nofun⟩
        rw [h.depth, hdepth]
        rfl
      have hreader (outer : List Level) (level : Level) : inside.reader outer level
          = { outer := (F.reader outer level).level :: (F.reader outer level).outer } := by
        rw [reader_become, reader_cons]
      rw [if_neg hselect, ← hreader] at hr
      obtain ⟨G, hG, hreaders⟩ := hinside.start rfl hr
      refine ⟨G, hG, fun outer level => ?_⟩
      rw [if_neg hselect, ← hreader, hreaders]

end Follows

end Frame

/-! ### Conditions wherever they stand -/

/-- What tokens do does not depend on the level that they are read on. -/
theorem exists_frame {ts : List Token} {r : Reader} (h : Reader.run {} ts = some r) :
    ∃ F : Frame, F.Follows ts ∧
      ∀ outer level, Reader.run { outer, level } ts = some (F.reader outer level) := by
  -- the induction adds tokens at the end, where the reader stands
  induction ts using List.reverseRecOn generalizing r with
  | nil => exact ⟨{}, ⟨rfl, by simp [hasOuterOr_nil], nofun, nofun⟩, fun _ _ => rfl⟩
  | append_singleton ts t ih =>
    rw [Reader.run_append] at h
    obtain ⟨r', hrun, hstep⟩ := Option.bind_eq_some_iff.mp h
    obtain ⟨F, hF, hreaders⟩ := ih hrun
    -- the frame gives the very reader of this run, among those of all levels
    obtain rfl := Option.some.inj ((hreaders [] {}).symm.trans hrun)
    rw [Reader.run] at hstep
    obtain ⟨r'', hstep, -⟩ := Option.bind_eq_some_iff.mp hstep
    obtain ⟨G, hG, hreaders'⟩ := hF.step hstep
    refine ⟨G, hG, fun outer level => ?_⟩
    rw [Reader.run_append, hreaders, Option.bind_some, Reader.run, hreaders']
    rfl

/-- A condition leaves the same pieces wherever an operand is expected.  It closes every parenthesis
that it opens, and an OR is among its pieces exactly if one stands outside of all parentheses. -/
theorem exists_readsPieces {ts : List Token} (hopening : Opening ts) {tree : BoolTree}
    (h : readCondition ts = some tree) :
    ∃ ps, ReadsPieces ts ps ∧ Piece.Proper ps ∧ (Piece.or ∈ ps ↔ HasOuterOr ts) ∧ Balanced ts := by
  unfold readCondition at h
  cases hrun : Reader.run {} ts with
  | none =>
    rw [hrun] at h
    cases h
  | some r =>
  obtain ⟨F, hF, hreaders⟩ := exists_frame hrun
  obtain rfl := Option.some.inj ((hreaders [] {}).symm.trans hrun)
  rw [hrun, Option.bind_some, Frame.settled_reader] at h
  cases hS : F.settle with
  | none =>
    rw [hS] at h
    cases h
  | some S =>
  obtain ⟨hfollows, hmode⟩ := hF.settle hS
  rw [hS, Option.map_some] at h
  -- no group is left open
  have hinner : S.inner = [] := by
    cases hinner : S.inner with
    | nil => rfl
    | cons l inner =>
      have hreader : S.reader [] {} = ({ S with inner := l :: inner } : Frame).reader [] {} := by
        rw [← hinner]
      rw [hreader, Frame.reader_cons] at h
      cases h
  obtain ⟨hpending, u, qs, hlast⟩ := hfollows.last hinner hmode
  refine ⟨S.pieces, ⟨hopening, fun outer level => ⟨_, hreaders outer level, ?_⟩⟩,
    ⟨?_, u, qs, hlast⟩, hfollows.or_iff, ?_⟩
  · rw [Frame.settled_reader, hS, Option.map_some, Frame.reader, hinner, hpending]
    rfl
  · have hfirst := hfollows.first
    cases hpieces : S.pieces with
    | nil => simp [hpieces] at hlast
    | cons p ps =>
      cases p with
      | operand t => exact ⟨t, ps, rfl⟩
      | or => exact absurd (by rw [hpieces]; rfl) hfirst
  · rw [hfollows.balanced_iff, hinner, hmode]
    rfl

/-! ### Texts that are a condition by themselves -/

/-- No comment begins outside of quotes. -/
def Uncommented (s : List Char) : Prop :=
  ∀ i ≤ s.length, Closed (s.take i) →
    ¬ ['-', '-'] <+: s.drop i ∧ ¬ ['/', '*'] <+: s.drop i

/-- A text that is a condition by itself: every quote in it is closed, all of it is read as a
condition, no comment goes on behind it, and it is no query, which parentheses around it would turn
into a subquery. -/
structure Complete (sql : String) : Prop where
  closed : Closed sql.toList
  opening : Opening (tokens sql.toList)
  uncommented : Uncommented sql.toList
  reads : ∃ tree, readCondition (tokens sql.toList) = some tree

def Token.isUnclosed : Token → Bool
  | .unclosed _ => true
  | _ => false

instance (s : List Char) : Decidable (Closed s) :=
  decidable_of_iff (∀ t ∈ tokens s, t.isUnclosed = false) <| by
    constructor
    · intro h q hq
      exact absurd (h _ hq) nofun
    · intro h t ht
      cases t with
      | unclosed q => exact absurd ht (h q)
      | _ => rfl

instance (s : List Char) : Decidable (Uncommented s) :=
  inferInstanceAs (Decidable (∀ i ≤ s.length, _))

instance (ts : List Token) : Decidable (Opening ts) :=
  decidable_of_iff (∃ t ∈ ts.head?, t.isKeyword "SELECT" = false) <| by
    cases ts <;> simp [Opening]

instance (sql : String) : Decidable (Complete sql) :=
  decidable_of_iff (Closed sql.toList ∧ Opening (tokens sql.toList) ∧ Uncommented sql.toList ∧
      (readCondition (tokens sql.toList)).isSome = true) <| by
    rw [Option.isSome_iff_exists]
    exact ⟨fun ⟨hclosed, hopening, huncommented, hreads⟩ =>
      ⟨hclosed, hopening, huncommented, hreads⟩,
      fun h => ⟨h.closed, h.opening, h.uncommented, h.reads⟩⟩

instance (ts : List Token) : Decidable (HasOuterOr ts) :=
  decidable_of_iff (∃ i < ts.length, nesting 0 (ts.take i) = some 0 ∧
      ∃ t ∈ ts[i]?, t.isKeyword "OR" = true) <| by
    constructor
    · rintro ⟨i, hi, hbefore, t, ht, hkeyword⟩
      refine ⟨ts.take i, t, ts.drop (i + 1), ?_, hbefore, hkeyword⟩
      obtain ⟨_, rfl⟩ := List.getElem?_eq_some_iff.mp ht
      simp
    · rintro ⟨before, t, after, rfl, hbefore, hkeyword⟩
      exact ⟨before.length, by simp, by rwa [List.take_left], t, by simp, hkeyword⟩

end SqlAssembly.Sql

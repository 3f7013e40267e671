import Mathlib.Order.BoundedOrder.Lattice
import SqlAssembly.Proofs.Sql.Fragment

namespace SqlAssembly

/-!
# What conditions mean

The value of a condition as it is read, in any bounded lattice: the truth values of two-valued
logic, those of three-valued logic, or sets of rows.  Nothing is asked of NOT.

* `Combinator.fold` — the values of several conditions put together;
* `Truth` — the truth values of SQL are such a lattice;
* `Interpretation`, `BoolTree.eval` — the value of a condition from those of its predicates;
* `Interpretation.reread` — a predicate stands for what its own tokens are read as;
* `Combinator.map_combine_append`, `Piece.map_tree?_append` — the value of members put together, and
  of pieces that stand side by side without an OR among them.
-/

variable {α : Type*} [Lattice α] [BoundedOrder α]

namespace Combinator

/-- The value of two conditions put together. -/
def op : Combinator → α → α → α
  | .and => (· ⊓ ·)
  | .or => (· ⊔ ·)

/-- The value of no conditions. -/
def unit : Combinator → α
  | .and => ⊤
  | .or => ⊥

/-- The value of several conditions put together. -/
def fold (combinator : Combinator) (xs : List α) : α := xs.foldr combinator.op combinator.unit

variable (combinator : Combinator)

omit [BoundedOrder α] in
theorem op_assoc (x y z : α) :
    combinator.op (combinator.op x y) z = combinator.op x (combinator.op y z) := by
  cases combinator with
  | and => exact inf_assoc x y z
  | or => exact sup_assoc x y z

theorem unit_op (x : α) : combinator.op combinator.unit x = x := by
  cases combinator with
  | and => exact top_inf_eq x
  | or => exact bot_sup_eq x

theorem op_unit (x : α) : combinator.op x combinator.unit = x := by
  cases combinator with
  | and => exact inf_top_eq x
  | or => exact sup_bot_eq x

/-- The value of conditions is that of the first ones and of the last ones. -/
theorem fold_append (xs ys : List α) :
    combinator.fold (xs ++ ys) = combinator.op (combinator.fold xs) (combinator.fold ys) := by
  induction xs with
  | nil => exact (combinator.unit_op _).symm
  | cons x xs ih =>
    show combinator.op x (combinator.fold (xs ++ ys)) = _
    rw [ih, ← op_assoc]
    rfl

end Combinator

namespace Sql

/-! ### Truth values -/

/-- The truth values of SQL, where a comparison with NULL is neither true nor false. -/
inductive Truth where
  | no
  | unknown
  | yes

namespace Truth

def rank : Truth → Nat
  | no => 0
  | unknown => 1
  | yes => 2

theorem rank_injective : Function.Injective rank := by
  intro p q h
  cases p <;> cases q <;> first | rfl | cases h

instance : LinearOrder Truth := LinearOrder.lift' rank rank_injective

instance : Lattice Truth := LinearOrder.toLattice

instance : BoundedOrder Truth where
  top := yes
  bot := no
  le_top p := by cases p <;> decide
  bot_le p := by cases p <;> decide

def not : Truth → Truth
  | no => yes
  | unknown => unknown
  | yes => no

end Truth

/-! ### The value of a condition -/

/-- What predicates stand for, and what a NOT does. -/
structure Interpretation (α : Type*) where
  predicate : List Token → α
  not : α → α

mutual

/-- The value of a condition. -/
def BoolTree.eval (I : Interpretation α) : BoolTree → α
  | .predicate ts => I.predicate ts
  | .negation t => I.not (t.eval I)
  | .joined combinator members => combinator.fold (BoolTree.evalAll I members)

/-- The values of several conditions. -/
def BoolTree.evalAll (I : Interpretation α) : List BoolTree → List α
  | [] => []
  | t :: ts => t.eval I :: BoolTree.evalAll I ts

end

namespace BoolTree

variable (I : Interpretation α)

/-- What is put together of one condition or none is that itself. -/
theorem combine_toList_self (combinator : Combinator) (t? : Option BoolTree) :
    combine combinator t?.toList = t? := by
  cases t? <;> rfl

/-- Each of several conditions has its own value. -/
theorem evalAll_eq_map (ts : List BoolTree) : evalAll I ts = ts.map (eval I) := by
  induction ts with
  | nil => rfl
  | cons t ts ih => rw [evalAll, ih, List.map_cons]

/-- Members that are put together have the value of all of them, also if one stands for itself. -/
theorem map_combine_cons (combinator : Combinator) (t : BoolTree) (ts : List BoolTree) :
    (combine combinator (t :: ts)).map (eval I)
      = some (combinator.fold ((t :: ts).map (eval I))) := by
  cases ts with
  | nil => exact congrArg some (combinator.op_unit _).symm
  | cons u ts =>
    show some (eval I (.joined combinator (t :: u :: ts))) = _
    rw [eval, evalAll_eq_map]

/-- The members of two lists have the values of both. -/
theorem map_combine_append (combinator : Combinator) (ts us : List BoolTree) :
    (combine combinator (ts ++ us)).map (eval I)
      = ((combine combinator ts).map (eval I)).merge combinator.op
          ((combine combinator us).map (eval I)) := by
  cases ts with
  | nil => simp [combine]
  | cons t ts =>
    -- where one side is empty there is nothing to put together
    cases us with
    | nil => simp [combine]
    | cons u us =>
      rw [List.cons_append, map_combine_cons, map_combine_cons, map_combine_cons,
        ← List.cons_append, List.map_append, Combinator.fold_append]
      rfl

end BoolTree

/-- Every predicate stands for what its own tokens are read as. -/
def Interpretation.reread (I : Interpretation α) : Interpretation α :=
  { I with
    predicate := fun ts =>
      match readCondition ts with
      | some t => t.eval I
      | none => I.predicate ts }

/-- Where the tokens of a predicate are a condition, the predicate has its value. -/
theorem Interpretation.eval_reread (I : Interpretation α) {ts : List Token} {t : BoolTree}
    (h : readCondition ts = some t) : (BoolTree.predicate ts).eval I.reread = t.eval I := by
  rw [BoolTree.eval, reread]
  simp only [h]

/-! ### The value of pieces -/

namespace Piece

variable (I : Interpretation α) {ps qs : List Piece}

/-- Operands alone are a single disjunct. -/
theorem alternatives_operands (trees : List BoolTree) :
    alternatives (trees.map .operand) = (BoolTree.combine .and trees).toList := by
  have hlevel : ({} : Level).putAll (trees.map .operand) = { conjuncts := trees } := by
    rw [Level.putAll, List.foldl_map]
    exact Level.foldl_add trees [] []
  rw [alternatives, hlevel]
  rfl

/-- Operands alone are their conjunction. -/
theorem tree?_operands (trees : List BoolTree) :
    tree? (trees.map .operand) = BoolTree.combine .and trees := by
  rw [tree?, alternatives_operands, BoolTree.combine_toList]

/-- Without an OR, there are operands only. -/
theorem exists_operands (h : Piece.or ∉ ps) : ∃ trees : List BoolTree, ps = trees.map .operand := by
  induction ps with
  | nil => exact ⟨[], rfl⟩
  | cons p ps ih =>
    rw [List.mem_cons, not_or] at h
    obtain ⟨trees, rfl⟩ := ih h.2
    cases p with
    | operand t => exact ⟨t :: trees, rfl⟩
    | or => exact absurd rfl h.1

/-- Pieces side by side mean both, unless an OR in one of them takes a part of the other. -/
theorem map_tree?_append (h : ps = [] ∨ qs = [] ∨ (Piece.or ∉ ps ∧ Piece.or ∉ qs)) :
    (tree? (ps ++ qs)).map (BoolTree.eval I)
      = ((tree? ps).map (BoolTree.eval I)).merge Combinator.and.op
          ((tree? qs).map (BoolTree.eval I)) := by
  have hnil : tree? [] = none := rfl
  -- operands alone are one disjunct, to which the others are added
  rcases h with rfl | rfl | ⟨hp, hq⟩
  · simp [hnil]
  · simp [hnil]
  · obtain ⟨ts, rfl⟩ := exists_operands hp
    obtain ⟨us, rfl⟩ := exists_operands hq
    rw [← List.map_append, tree?_operands, tree?_operands, tree?_operands,
      BoolTree.map_combine_append]

end Piece

end Sql

end SqlAssembly

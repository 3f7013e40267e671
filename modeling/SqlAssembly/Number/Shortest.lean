import SqlAssembly.Number.Binary64

namespace SqlAssembly

/-!
# Shortest decimals

A double is written with the fewest digits that read back to it, and of the decimals with so many
digits with the one nearest to it.  The grids of decimals with 1, 2, … digits are tried in turn:
if a point of a grid lies in the interval of reals that round to the double, so does one of the
two points next to the double itself.

* `Interval` — the reals that round to a double, over a common denominator;
* `Interval.nearest?` — the point of the unit grid that stands for the double;
* `Binary64.shortest` — the decimal.
-/

/-- Which of two decimals at the same distance is taken. -/
inductive Tie where
  | toEven
  | up
  deriving DecidableEq, Repr

/-- The positive decimal `digits · 10 ^ exponent`. -/
structure Decimal where
  digits : Nat
  exponent : Int
  deriving DecidableEq, Repr

/-- The reals from `low / unit` to `high / unit` around `mid / unit`. -/
structure Interval where
  low : Nat
  mid : Nat
  high : Nat
  unit : Nat
  closed : Bool

namespace Interval

/-- The same interval in units of `10 ^ k`. -/
def inUnits (i : Interval) (k : Int) : Interval :=
  let up := Nat.pow 10 (-k).toNat
  { i with
    low := i.low * up
    mid := i.mid * up
    high := i.high * up
    unit := i.unit * Nat.pow 10 k.toNat }

/-- The integer lies in the interval. -/
def holds (i : Interval) (n : Nat) : Bool :=
  if i.closed then i.low ≤ n * i.unit && n * i.unit ≤ i.high
  else i.low < n * i.unit && n * i.unit < i.high

/-- The integer nearest to the middle, and the other one of its two neighbours. -/
def neighbours (tie : Tie) (i : Interval) : Nat × Nat :=
  let below := i.mid / i.unit
  let rest := 2 * (i.mid % i.unit)
  let lower := match tie with
    | .toEven => rest < i.unit || (rest == i.unit && below % 2 == 0)
    | .up => rest < i.unit
  if lower then (below, below + 1) else (below + 1, below)

/-- The integer in the interval that is nearest to its middle, if there is any. -/
def nearest? (tie : Tie) (i : Interval) : Option Nat :=
  let (first, second) := i.neighbours tie
  if i.holds first then some first else if i.holds second then some second else none

end Interval

/-- The greatest `k` with `10 ^ k ≤ num / den`, for a positive quotient. -/
def floorLog10 (num den : Nat) : Int :=
  let k : Int := ((Nat.toDigits 10 num).length : Int) - (Nat.toDigits 10 den).length
  if den * Nat.pow 10 k.toNat ≤ num * Nat.pow 10 (-k).toNat then k else k - 1

namespace Decimal

/-- The same decimal with a last digit that is not zero. -/
def withoutZeros (digits : Nat) (exponent : Int) : Decimal :=
  if digits ≠ 0 ∧ digits % 10 = 0 then withoutZeros (digits / 10) (exponent + 1)
  else ⟨digits, exponent⟩
termination_by digits
decreasing_by omega

/-- Tries the grids of `10 ^ k`, `10 ^ (k - 1)`, …; the point next to the middle of the last one
is taken unseen. -/
def search (tie : Tie) (i : Interval) (k : Int) : Nat → Decimal
  | 0 => withoutZeros ((i.inUnits k).neighbours tie).1 k
  | n + 1 =>
    match (i.inUnits k).nearest? tie with
    | some digits => withoutZeros digits k
    | none => search tie i (k - 1) n

end Decimal

namespace Binary64

/-- The reals that round to a finite double other than zero.  The gap below a power of two is
half as wide as the one above, and the ends belong to the double with the even significand. -/
def interval (x : Binary64) : Interval :=
  let shift := (x.scale - 2).toNat
  let gap := if x.fraction = 0 ∧ 1 < x.exponentField then 1 else 2
  { low := (4 * x.significand - gap) <<< shift
    mid := (4 * x.significand) <<< shift
    high := (4 * x.significand + 2) <<< shift
    unit := 1 <<< (2 - x.scale).toNat
    closed := x.significand % 2 = 0 }

/-- The shortest decimal that reads back to the magnitude of a finite double other than zero;
17 digits always do. -/
def shortest (tie : Tie) (x : Binary64) : Decimal :=
  let i := x.interval
  Decimal.search tie i (floorLog10 i.mid i.unit) 16

end Binary64

end SqlAssembly

namespace SqlAssembly

/-!
# Double precision numbers

A double is kept as its 64 bits, so that every bit pattern, payloads of NaN included, is passed on
as it came and equality is decidable.  Arithmetic is exact: a result is formed as a quotient of
natural numbers and rounded once.

* `Binary64.significand`, `Binary64.scale` — a finite double is `significand · 2 ^ scale`, up to
  its sign;
* `Binary64.ofRatio` — the double nearest to a quotient, a half going to the even neighbour;
* `Binary64.mul`, `Binary64.div` — rounded product and quotient of magnitudes;
* `Binary32.widen` — the double of the same value as a single.
-/

/-- An IEEE 754 double as its bit pattern: sign, 11 bits of exponent, 52 bits of fraction. -/
structure Binary64 where
  bits : UInt64
  deriving DecidableEq, Repr

namespace Binary64

/-- The sign bit is set. -/
def isNegative (x : Binary64) : Bool := x.bits >>> 63 == 1

/-- The biased exponent, 0 for subnormal numbers and 2047 for infinities and NaN. -/
def exponentField (x : Binary64) : Nat := (x.bits >>> 52 &&& 0x7ff).toNat

/-- The bits below the exponent. -/
def fraction (x : Binary64) : Nat := (x.bits &&& 0xfffffffffffff).toNat

def isFinite (x : Binary64) : Bool := x.exponentField != 2047

def isNaN (x : Binary64) : Bool := x.exponentField == 2047 && x.fraction != 0

def isZero (x : Binary64) : Bool := x.exponentField == 0 && x.fraction == 0

/-- The integer that a finite double is a multiple of a power of two by. -/
def significand (x : Binary64) : Nat :=
  if x.exponentField = 0 then x.fraction else 0x10000000000000 + x.fraction

/-- The exponent of that power of two. -/
def scale (x : Binary64) : Int := (max x.exponentField 1 : Nat) - 1075

/-- The magnitude of a finite double as a quotient. -/
def ratio (x : Binary64) : Nat × Nat :=
  (x.significand <<< x.scale.toNat, 1 <<< (-x.scale).toNat)

def infinity : Binary64 := ⟨0x7ff0000000000000⟩

/-- The number with the other sign. -/
def neg (x : Binary64) : Binary64 := ⟨x.bits ^^^ 0x8000000000000000⟩

/-- The number with a minus sign in front if `negative`. -/
def signed (negative : Bool) (x : Binary64) : Binary64 := if negative then x.neg else x

/-- The greatest `k` with `2 ^ k ≤ num / den`, for a positive quotient. -/
def floorLog2 (num den : Nat) : Int :=
  let k : Int := (num.log2 : Int) - den.log2
  if den <<< k.toNat ≤ num <<< (-k).toNat then k else k - 1

/-- The integer nearest to `num / den`, a half going to the even neighbour. -/
def roundHalfEven (num den : Nat) : Nat :=
  let q := num / den
  let r := num % den
  if 2 * r < den then q else if den < 2 * r then q + 1 else q + q % 2

/-- The double nearest to `num / den`.  A significand that rounds up to `2 ^ 53` carries into the
exponent field by itself, and what is too large becomes infinity. -/
def ofRatio (num den : Nat) : Binary64 :=
  if num = 0 then ⟨0⟩
  else
    let scale := max (floorLog2 num den - 52) (-1074)
    let significand := roundHalfEven (num <<< (-scale).toNat) (den <<< scale.toNat)
    let magnitude := (scale + 1074).toNat <<< 52 + significand
    ⟨(min magnitude infinity.bits.toNat).toUInt64⟩

def ofNat (n : Nat) : Binary64 := ofRatio n 1

/-- The rounded product of two finite magnitudes. -/
def mul (x y : Binary64) : Binary64 :=
  ofRatio (x.ratio.1 * y.ratio.1) (x.ratio.2 * y.ratio.2)

/-- The rounded quotient of two finite magnitudes, the second not zero. -/
def div (x y : Binary64) : Binary64 :=
  ofRatio (x.ratio.1 * y.ratio.2) (x.ratio.2 * y.ratio.1)

end Binary64

/-- An IEEE 754 single as its bit pattern: sign, 8 bits of exponent, 23 bits of fraction. -/
structure Binary32 where
  bits : UInt32
  deriving DecidableEq, Repr

namespace Binary32

/-- The double of the same value.  A NaN keeps its payload and becomes quiet. -/
def widen (x : Binary32) : Binary64 :=
  let exponent := (x.bits >>> 23 &&& 0xff).toNat
  let fraction := x.bits &&& 0x7fffff
  let magnitude : Binary64 :=
    if exponent = 255 then
      let quiet : UInt64 := if fraction = 0 then 0 else 0x8000000000000
      ⟨Binary64.infinity.bits ||| quiet ||| fraction.toUInt64 <<< 29⟩
    else
      let significand := if exponent = 0 then fraction.toNat else 0x800000 + fraction.toNat
      Binary64.ofRatio (significand <<< max exponent 1) (1 <<< 150)
  magnitude.signed (x.bits >>> 31 == 1)

end Binary32

end SqlAssembly

/-!
# Single-precision numbers

A 32-bit floating-point number is read as an exact fraction: a sign, and for a normal number the
value `mantissa * 2 ^ exponent`.  Arithmetic on such numbers is arithmetic on naturals followed by
one rounding step.
-/

namespace Playout

/-! ## 1. Rounding a quotient -/

/-- The integer nearest to `num / den`, a tie going to the even neighbour. -/
def roundHalfEven (num den : Nat) : Nat :=
  let q := num / den
  let r := num % den
  if 2 * r < den then q
  else if den < 2 * r then q + 1
  else if q % 2 = 0 then q else q + 1

/-- The integer nearest to `num / den`, a tie going up. -/
def roundHalfUp (num den : Nat) : Nat := (2 * num + den) / (2 * den)

/-- The number of binary digits of `n`; zero has none. -/
def bitLength (n : Nat) : Nat := if n = 0 then 0 else n.log2 + 1

/-! ## 2. Bit patterns -/

/-- A single-precision number, as its bit pattern. -/
structure Binary32 where
  bits : UInt32
deriving DecidableEq, Repr

/-- What a bit pattern stands for, as far as an output level needs to know. -/
inductive Binary32.Kind where
  | zero
  | subnormal
  -- The value `mantissa * 2 ^ (exponent - 150)`, with 24 bits of mantissa.
  | normal (mantissa exponent : Nat)
  | infinite
  | nan
deriving DecidableEq, Repr

namespace Binary32

/-- The sign bit, as a number: two to the 31st. -/
def signBit : Nat := 2147483648

/-- The leading bit of a normal mantissa, which the fraction bits leave out: two to the 23rd. -/
def hiddenBit : Nat := 8388608

def isNegative (x : Binary32) : Bool := decide (signBit ≤ x.bits.toNat)

/-- The eight exponent bits. -/
def exponentField (x : Binary32) : Nat := x.bits.toNat / hiddenBit % 256

/-- The twenty-three fraction bits. -/
def fractionField (x : Binary32) : Nat := x.bits.toNat % hiddenBit

/-- Sorts a bit pattern by its exponent field. -/
def kind (x : Binary32) : Kind :=
  if x.exponentField = 0 then (if x.fractionField = 0 then .zero else .subnormal)
  else if x.exponentField = 255 then (if x.fractionField = 0 then .infinite else .nan)
  else .normal (hiddenBit + x.fractionField) x.exponentField

/-- Rounds a positive whole number to 24 significant bits, a tie going to the even neighbour.  The
answer is `q` and `s` with `q * 2 ^ s` the rounded number. -/
def roundTo24 (n : Nat) : Nat × Nat :=
  let s := bitLength n - 24
  (roundHalfEven n (1 <<< s), s)

/-- The single-precision number nearest to `num / den`, a fraction between `2 ^ -100` and `1`. -/
def ofRatio (num den : Nat) : Binary32 :=
  if num = 0 then ⟨0⟩
  else
    -- Scale the fraction until its whole part has exactly 24 bits.
    let k := 24 + bitLength den - bitLength num
    let k := if bitLength ((num <<< k) / den) = 25 then k - 1 else k
    let m := roundHalfEven (num <<< k) den
    ⟨UInt32.ofNat ((150 - k) * hiddenBit + (m - hiddenBit))⟩

end Binary32

end Playout

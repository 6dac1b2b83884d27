import Playout.Binary32

/-!
# Gain

The output level of a stream: 256 steps from silence to full level.  A level can be given as a
step, as a percentage, or as a linear factor in single precision.
-/

namespace Playout

/-- An output level, from 0 (silence) to 255 (full). -/
@[ext] structure Gain where
  level : UInt8
deriving DecidableEq, Repr, Ord

namespace Gain

def min : Gain := ⟨0⟩

def max : Gain := ⟨255⟩

/-- The level a stream has unless told otherwise. -/
def standard : Gain := max

instance : Inhabited Gain := ⟨standard⟩

/-- The level nearest to a percentage of full level; beyond a hundred percent it stays full. -/
def ofPercent (percent : Nat) : Gain :=
  let p := if 100 < percent then 100 else percent
  ⟨UInt8.ofNat ((p * 255 + 50) / 100)⟩

/-- The level nearest to a positive factor below one, given by mantissa and exponent.  The product
with 255 is rounded to single precision first, and then to a whole number, a half going up. -/
def ofFraction (mantissa exponent : Nat) : Gain :=
  let (q, s) := Binary32.roundTo24 (mantissa * 255)
  ⟨UInt8.ofNat (roundHalfUp q (1 <<< (150 - exponent - s)))⟩

/-- The level of a linear factor.  Factors from one upwards give full level, and everything that is
not a positive normal number gives silence. -/
def ofBinary32 (x : Binary32) : Gain :=
  match x.kind with
  | .normal mantissa exponent =>
    if x.isNegative then min
    else if 127 ≤ exponent then max
    else ofFraction mantissa exponent
  | .infinite => if x.isNegative then min else max
  | .zero | .subnormal | .nan => min

/-- The level as a linear factor, the nearest one in single precision. -/
def toBinary32 (g : Gain) : Binary32 := .ofRatio g.level.toNat 255

/-- The text of a level: its step. -/
def render (g : Gain) : String := toString g.level.toNat

end Gain

end Playout

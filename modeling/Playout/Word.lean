/-!
# Machine words

Sizes and counts come in words of 64 bits.  The library works them out in natural numbers and
compares them with the two limits below, so no intermediate result wraps.
-/

namespace Playout

/-- The first number that a word does not hold: two to the 64th. -/
def wordLimit : Nat := 18446744073709551616

/-- Half of the address space: two to the 63rd.  No object in memory is larger. -/
def objectLimit : Nat := 9223372036854775808

theorem wordLimit_eq_size : wordLimit = UInt64.size := rfl

/-- The number that a word stands for is below the limit. -/
theorem toNat_lt_wordLimit (w : UInt64) : w.toNat < wordLimit := w.toNat_lt_size

end Playout

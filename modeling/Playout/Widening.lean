import Playout.Sample
import Playout.Bytes
import Playout.Contract

/-!
# Duplicating mono into stereo

A producer of mono samples fills the first half of a stereo buffer.  `Bytes.widen` spreads them over
the whole buffer in place, the last sample first, so that each sample is read before anything is
written over it.
-/

namespace Playout

namespace Bytes

/-- Spreads the first `samples` samples of `width` bytes, the last one first. -/
def spread (width : Nat) : Nat → Bytes → Bytes
  | 0, b => b
  | i + 1, b =>
    let left := b.copyWithin (i * width) width (2 * i * width)
    spread width i (left.copyWithin (2 * i * width) width (2 * i * width + width))

/-- Duplicates the mono samples in the first half of a buffer.  Bytes beyond the last whole pair
stay. -/
def widen (e : Encoding) (b : Bytes) : Except Defect Bytes :=
  if e.isLinear = false then .error .notLinear
  else if b.size % 2 ≠ 0 then .error .oddLength
  else
    let width := e.bits / 8
    .ok (spread width (b.size / (2 * width)) b)

@[simp] theorem size_spread (width samples : Nat) (b : Bytes) :
    (spread width samples b).size = b.size := by
  induction samples generalizing b with
  | zero => rfl
  | succ i ih => simp [spread, ih]

-- The samples are spread in place.
theorem size_of_widen {e : Encoding} {b b' : Bytes} (h : b.widen e = .ok b') :
    b'.size = b.size := by
  unfold widen at h
  split at h
  next => cases h
  next =>
    split at h
    next => cases h
    next =>
      cases h
      exact size_spread _ _ _

end Bytes

end Playout

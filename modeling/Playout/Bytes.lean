/-!
# Bytes

The content of a buffer, and the ways to write into a part of it.  A write never changes the length:
what does not fit is cut off.
-/

namespace Playout

abbrev Bytes := Array UInt8

namespace Bytes

def zeros (n : Nat) : Bytes := Array.replicate n 0

/-- The first `n` bytes, or all of them if there are fewer. -/
def first (b : Bytes) (n : Nat) : Bytes := b.extract 0 n

/-- Writes `src` byte by byte from position `start` on; what lies beyond the end is dropped. -/
def blit (b : Bytes) (start : Nat) : List UInt8 → Bytes
  | [] => b
  | x :: rest => blit (b.setIfInBounds start x) (start + 1) rest

/-- Copies `count` bytes from `source` to `target` within the buffer, as if through a second one. -/
def copyWithin (b : Bytes) (source count target : Nat) : Bytes :=
  b.blit target (b.extract source (source + count)).toList

/-- Replaces the first bytes by those of `new`, at most as many as the buffer has. -/
def overwrite (b : Bytes) (new : Bytes) : Bytes := b.blit 0 new.toList

@[simp] theorem size_zeros (n : Nat) : (zeros n).size = n := Array.size_replicate

theorem getElem?_zeros (n i : Nat) : (zeros n)[i]? = if i < n then some 0 else none := by
  simp [zeros, Array.getElem?_replicate]

@[simp] theorem size_first (b : Bytes) (n : Nat) : (b.first n).size = min n b.size := by
  simp [first]

theorem getElem?_first (b : Bytes) (n i : Nat) :
    (b.first n)[i]? = if i < n then b[i]? else none := by
  simp only [first, Array.getElem?_extract]
  by_cases h : i < n
  · by_cases h' : i < b.size
    · rw [if_pos (by omega), if_pos h, Nat.zero_add]
    · rw [if_neg (by omega), if_pos h, Array.getElem?_eq_none (by omega)]
  · rw [if_neg (by omega), if_neg h]

@[simp] theorem size_blit (b : Bytes) (start : Nat) (src : List UInt8) :
    (b.blit start src).size = b.size := by
  induction src generalizing b start with
  | nil => rfl
  | cons x rest ih => simp [blit, ih]

/-- A byte after a write: the written one inside the written range, the old one elsewhere. -/
theorem getElem?_blit (b : Bytes) (start : Nat) (src : List UInt8) (i : Nat) :
    (b.blit start src)[i]? =
      if start ≤ i ∧ i < start + src.length ∧ i < b.size then src[i - start]? else b[i]? := by
  induction src generalizing b start with
  | nil => simp [blit]; omega
  | cons x rest ih =>
    simp only [blit, ih, Array.size_setIfInBounds, List.length_cons]
    by_cases hi : i = start
    · subst hi
      by_cases hb : i < b.size
      · rw [if_neg (by omega), if_pos ⟨by omega, by omega, hb⟩]
        simp [hb]
      · rw [if_neg (by omega), if_neg (by omega)]
        simp [hb]
    · rw [Array.getElem?_setIfInBounds_ne (by omega)]
      by_cases hr : start + 1 ≤ i ∧ i < start + 1 + rest.length ∧ i < b.size
      · rw [if_pos hr, if_pos ⟨by omega, by omega, hr.2.2⟩]
        rw [show i - start = i - (start + 1) + 1 by omega, List.getElem?_cons_succ]
      · rw [if_neg hr, if_neg (by omega)]

@[simp] theorem size_copyWithin (b : Bytes) (source count target : Nat) :
    (b.copyWithin source count target).size = b.size := by
  simp [copyWithin]

@[simp] theorem size_overwrite (b new : Bytes) : (b.overwrite new).size = b.size := by
  simp [overwrite]

end Bytes

/-! ## Edits -/

/-- A way to write into a buffer. -/
inductive Edit where
  -- Every byte the same.
  | fill (value : UInt8)
  -- Bytes that count up from a start value and wrap.
  | ramp (start : UInt8)
  -- Given bytes from a position on.
  | put (start : Nat) (bytes : List UInt8)
deriving DecidableEq, Repr

namespace Edit

def apply (e : Edit) (b : Bytes) : Bytes :=
  match e with
  | .fill value => b.map fun _ => value
  | .ramp start => b.mapIdx fun i _ => start + UInt8.ofNat i
  | .put start bytes => b.blit start bytes

def applyAll (es : List Edit) (b : Bytes) : Bytes := es.foldl (fun b e => e.apply b) b

@[simp] theorem size_apply (e : Edit) (b : Bytes) : (e.apply b).size = b.size := by
  cases e <;> simp [apply]

@[simp] theorem size_applyAll (es : List Edit) (b : Bytes) : (applyAll es b).size = b.size := by
  induction es generalizing b with
  | nil => rfl
  | cons e rest ih => simpa [applyAll] using (ih (e.apply b)).trans (size_apply e b)

end Edit

end Playout

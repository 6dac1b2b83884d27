import Playout.Widening

/-!
# Duplication, sample by sample

`Bytes.widen` works in place and from the back.  Seen from outside it is a plain duplication: every
sample of the first half comes twice.  `Bytes.duplicate` says so without an order, and the loop
agrees with it because a sample is only ever written at or above the place it is read from.
-/

namespace Playout

namespace Bytes

/-- Every sample of `width` bytes twice. -/
def duplicate (width : Nat) (b : Bytes) : Bytes :=
  Array.ofFn fun i : Fin (2 * b.size) => b.getD (i / (2 * width) * width + i % width) 0

@[simp] theorem size_duplicate (width : Nat) (b : Bytes) :
    (b.duplicate width).size = 2 * b.size := by
  simp [duplicate]

/-! ## 1. The first bytes -/

theorem first_of_size_le {b : Bytes} {n : Nat} (h : b.size ≤ n) : b.first n = b := by
  unfold first
  rw [Array.extract_eq_self_of_le h]

theorem first_first (b : Bytes) (m n : Nat) : (b.first m).first n = b.first (min m n) := by
  apply Array.ext_getElem?
  intro i
  rw [getElem?_first, getElem?_first, getElem?_first]
  by_cases hn : i < n
  · rw [if_pos hn]
    by_cases hm : i < m
    · rw [if_pos hm, if_pos (by omega)]
    · rw [if_neg hm, if_neg (by omega)]
  · rw [if_neg hn, if_neg (by omega)]

-- Asking for more than there is changes nothing.
theorem first_min_size (b : Bytes) (n : Nat) : b.first (min n b.size) = b.first n := by
  have hall : b.first b.size = b := first_of_size_le (Nat.le_refl _)
  rw [Nat.min_comm, ← first_first, hall]

theorem first_zeros (m n : Nat) : (zeros m).first n = zeros (min n m) := by
  apply Array.ext_getElem?
  intro i
  rw [getElem?_first, getElem?_zeros, getElem?_zeros]
  by_cases hn : i < n
  · rw [if_pos hn]
    by_cases hm : i < m
    · rw [if_pos hm, if_pos (by omega)]
    · rw [if_neg hm, if_neg (by omega)]
  · rw [if_neg hn, if_neg (by omega)]

-- What was written over the first bytes is what they are.
theorem first_overwrite (b : Bytes) {new : Bytes} (h : new.size ≤ b.size) :
    (b.overwrite new).first new.size = new := by
  apply Array.ext_getElem?
  intro i
  rw [getElem?_first]
  by_cases hi : i < new.size
  · rw [if_pos hi, overwrite, getElem?_blit, if_pos ⟨by omega, by simpa using hi, by omega⟩,
      Array.getElem?_toList, Nat.sub_zero]
  · rw [if_neg hi, Array.getElem?_eq_none (by omega)]

/-! ## 2. One sample -/

-- A byte after a copy: from the source inside the target range, the old one elsewhere.
theorem getElem?_copyWithin {b : Bytes} {source count target : Nat}
    (hs : source + count ≤ b.size) (ht : target + count ≤ b.size) (i : Nat) :
    (b.copyWithin source count target)[i]? =
      if target ≤ i ∧ i < target + count then b[source + (i - target)]? else b[i]? := by
  have hlen : (b.extract source (source + count)).toList.length = count := by
    rw [Array.length_toList, Array.size_extract]
    omega
  rw [copyWithin, getElem?_blit, hlen]
  by_cases hi : target ≤ i ∧ i < target + count
  · rw [if_pos hi, if_pos ⟨hi.1, hi.2, by omega⟩, Array.getElem?_toList, Array.getElem?_extract,
      if_pos (by omega)]
  · rw [if_neg hi, if_neg (by omega)]

-- The two copies that duplicate sample `i`: both halves of the pair come from the same place, and
-- nothing else changes.
theorem getElem?_duplicate_one {b : Bytes} {w i : Nat} (hb : 2 * (i * w) + 2 * w ≤ b.size)
    (j : Nat) :
    ((b.copyWithin (i * w) w (2 * i * w)).copyWithin (2 * i * w) w (2 * i * w + w))[j]? =
      if 2 * (i * w) ≤ j ∧ j < 2 * (i * w) + 2 * w then b[i * w + j % w]? else b[j]? := by
  rw [Nat.mul_assoc 2 i w]
  generalize hp : i * w = p at hb ⊢
  rw [getElem?_copyWithin (by simp; omega) (by simp; omega),
    getElem?_copyWithin (by omega) (by omega), getElem?_copyWithin (by omega) (by omega)]
  -- `2 * p` is a whole number of samples, so the remainder is the distance to a sample's start
  have hmod : ∀ d, d < w → (2 * p + d) % w = d := by
    intro d hd
    rw [← hp, ← Nat.mul_assoc, Nat.mul_comm (2 * i) w, Nat.mul_add_mod, Nat.mod_eq_of_lt hd]
  by_cases hpair : 2 * p ≤ j ∧ j < 2 * p + 2 * w
  · rw [if_pos hpair]
    by_cases hright : 2 * p + w ≤ j ∧ j < 2 * p + w + w
    · rw [if_pos hright, if_pos (by omega)]
      have hj : j % w = j - (2 * p + w) := by
        have hd := hmod (j - (2 * p + w)) (by omega)
        rw [← Nat.add_mod_right, show 2 * p + (j - (2 * p + w)) + w = j by omega] at hd
        exact hd
      rw [hj]
      congr 1
      omega
    · rw [if_neg hright, if_pos (by omega)]
      have hj : j % w = j - 2 * p := by
        have hd := hmod (j - 2 * p) (by omega)
        rwa [show 2 * p + (j - 2 * p) = j by omega] at hd
      rw [hj]
  · rw [if_neg hpair, if_neg (by omega), if_neg (by omega)]

/-! ## 3. All samples -/

-- A byte after the loop.  Pair number `j / (2 * w)` is made of the sample of that number.
theorem getElem?_spread {w n : Nat} {b : Bytes} (hw : 0 < w) (hb : n * (2 * w) ≤ b.size)
    (j : Nat) :
    (spread w n b)[j]? = if j < n * (2 * w) then b[j / (2 * w) * w + j % w]? else b[j]? := by
  induction n generalizing b with
  | zero => simp [spread]
  | succ i ih =>
    have hpos : 0 < 2 * w := by omega
    have hsucc : (i + 1) * (2 * w) = 2 * (i * w) + 2 * w := by
      rw [Nat.succ_mul, Nat.mul_left_comm]
    have hprev : i * (2 * w) = 2 * (i * w) := Nat.mul_left_comm i 2 w
    rw [hsucc] at hb
    rw [spread, ih (by simp; omega), hsucc, hprev]
    by_cases hlow : j < 2 * (i * w)
    · rw [if_pos hlow, if_pos (by omega), getElem?_duplicate_one hb, if_neg]
      -- the sample of an earlier pair lies below everything that was written
      have hq : j / (2 * w) < i := Nat.div_lt_of_lt_mul (by rw [Nat.mul_comm, hprev]; exact hlow)
      have hr : j % w < w := Nat.mod_lt j hw
      have hle : (j / (2 * w) + 1) * w ≤ i * w := Nat.mul_le_mul_right w hq
      rw [Nat.succ_mul] at hle
      omega
    · rw [if_neg hlow, getElem?_duplicate_one hb]
      by_cases hpair : j < 2 * (i * w) + 2 * w
      · have hq : j / (2 * w) = i := by
          apply Nat.div_eq_of_lt_le
          · rw [hprev]
            omega
          · rw [hsucc]
            exact hpair
        rw [if_pos ⟨by omega, hpair⟩, if_pos hpair, hq]
      · rw [if_neg (by omega), if_neg hpair]

-- A buffer that consists of whole pairs is duplicated in full.
theorem spread_eq_duplicate {w n : Nat} {b : Bytes} (hw : 0 < w) (hb : b.size = n * (2 * w)) :
    spread w n b = (b.first (n * w)).duplicate w := by
  have hhalf : n * (2 * w) = 2 * (n * w) := Nat.mul_left_comm n 2 w
  apply Array.ext_getElem?
  intro j
  rw [getElem?_spread hw (by omega)]
  by_cases hj : j < n * (2 * w)
  · -- the sample of pair `j / (2 * w)` lies in the first half
    have hq : j / (2 * w) < n := Nat.div_lt_of_lt_mul (by rwa [Nat.mul_comm])
    have hr : j % w < w := Nat.mod_lt j hw
    have hle : (j / (2 * w) + 1) * w ≤ n * w := Nat.mul_le_mul_right w hq
    rw [Nat.succ_mul] at hle
    have hsize : (b.first (n * w)).size = n * w := by
      rw [size_first]
      omega
    have hin : j / (2 * w) * w + j % w < (b.first (n * w)).size := by omega
    rw [if_pos hj, duplicate, Array.getElem?_ofFn, dif_pos (by omega), Array.getD, dif_pos hin]
    have hget := getElem?_first b (n * w) (j / (2 * w) * w + j % w)
    rw [if_pos (by omega), Array.getElem?_eq_getElem hin] at hget
    exact hget.symm
  · rw [if_neg hj, Array.getElem?_eq_none (by omega), Array.getElem?_eq_none]
    rw [size_duplicate, size_first]
    omega

/-- Duplicating in place the mono half of a buffer of `frames` stereo frames. -/
theorem widen_eq_duplicate {e : Encoding} {frames : Nat} {b : Bytes} (he : e.isLinear = true)
    (hw : 0 < e.bits / 8) (hb : b.size = frames * (2 * (e.bits / 8))) :
    b.widen e = .ok ((b.first (b.size / 2)).duplicate (e.bits / 8)) := by
  have hhalf : frames * (2 * (e.bits / 8)) = 2 * (frames * (e.bits / 8)) :=
    Nat.mul_left_comm _ _ _
  have hpairs : b.size / (2 * (e.bits / 8)) = frames := by
    rw [hb]
    exact Nat.mul_div_cancel _ (by omega)
  have hmono : b.size / 2 = frames * (e.bits / 8) := by omega
  rw [widen, if_neg (by simp [he]), if_neg (by omega), hmono]
  show Except.ok (spread (e.bits / 8) (b.size / (2 * (e.bits / 8))) b) = _
  rw [hpairs, spread_eq_duplicate hw hb]

end Bytes

end Playout

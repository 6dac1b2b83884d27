import Playout.Proofs.Conduct

/-!
# Duplicating in place

Source and target of `Bytes.widen` lie in one buffer, so what comes of it hangs on the order of its
copies.  `Bytes.copies` lists them: each lies within the buffer, and when a sample is read nothing
has been written over it yet.  Byte by byte the result is then that of a duplication into a second
buffer.
-/

namespace Playout

namespace Bytes

/-! ## 1. The copies, one by one -/

/-- A copy of one sample from one place of a buffer to another. -/
structure Copy where
  source : Nat
  target : Nat
deriving DecidableEq, Repr

/-- Makes the copy of a sample of `width` bytes. -/
def Copy.make (width : Nat) (b : Bytes) (c : Copy) : Bytes := b.copyWithin c.source width c.target

/-- The copies that spread so many samples, the last sample first: each goes to the left half of its
pair, and from there to the right half. -/
def copies (width : Nat) : Nat → List Copy
  | 0 => []
  | i + 1 =>
    ⟨i * width, 2 * i * width⟩ :: ⟨2 * i * width, 2 * i * width + width⟩ :: copies width i

theorem spread_eq_foldl (width samples : Nat) (b : Bytes) :
    spread width samples b = (copies width samples).foldl (Copy.make width) b := by
  induction samples generalizing b with
  | zero => rfl
  | succ i ih => exact ih _

-- No copy reaches beyond the pairs.
theorem fits_of_mem_copies {w n : Nat} {c : Copy} (hc : c ∈ copies w n) :
    c.source + w ≤ n * (2 * w) ∧ c.target + w ≤ n * (2 * w) := by
  induction n with
  | zero => cases hc
  | succ i ih =>
    have hnext : (i + 1) * (2 * w) = i * (2 * w) + 2 * w := Nat.succ_mul i (2 * w)
    have htwice : i * (2 * w) = 2 * (i * w) := Nat.mul_left_comm i 2 w
    rcases List.mem_cons.mp hc with rfl | hc
    · simp only [Nat.mul_assoc 2 i w]
      omega
    rcases List.mem_cons.mp hc with rfl | hc
    · simp only [Nat.mul_assoc 2 i w]
      omega
    · have hrest := ih hc
      omega

/-- Before a sample is read, all that is written lies above it. -/
theorem copies_eq_append {w n i : Nat} (hi : i < n) :
    ∃ before after, copies w n = before ++ ⟨i * w, 2 * i * w⟩ :: after ∧
      ∀ c ∈ before, i * w + w ≤ c.target := by
  induction n with
  | zero => cases hi
  | succ k ih =>
    rcases Nat.lt_succ_iff_lt_or_eq.mp hi with hlt | rfl
    · obtain ⟨before, after, hsplit, habove⟩ := ih hlt
      refine ⟨⟨k * w, 2 * k * w⟩ :: ⟨2 * k * w, 2 * k * w + w⟩ :: before, after, ?_, ?_⟩
      · rw [copies, hsplit]
        rfl
      · -- the pair of a later sample begins where that sample lies, or above
        have hle : (i + 1) * w ≤ k * w := Nat.mul_le_mul_right w hlt
        rw [Nat.succ_mul] at hle
        intro c hc
        rcases List.mem_cons.mp hc with rfl | hc
        · simp only [Nat.mul_assoc 2 k w]
          omega
        rcases List.mem_cons.mp hc with rfl | hc
        · simp only [Nat.mul_assoc 2 k w]
          omega
        · exact habove c hc
    · exact ⟨[], _, rfl, nofun⟩

/-! ## 2. The whole buffer -/

-- Buffers that agree on the samples and beyond the pairs become the same.
theorem spread_congr {w n : Nat} {a b : Bytes} (hw : 0 < w) (hb : n * (2 * w) ≤ b.size)
    (hsize : a.size = b.size)
    (hsame : ∀ k, k < n * w ∨ n * (2 * w) ≤ k → a[k]? = b[k]?) : spread w n a = spread w n b := by
  apply Array.ext_getElem?
  intro k
  rw [getElem?_spread hw (by omega), getElem?_spread hw hb]
  by_cases hk : k < n * (2 * w)
  · have hq : k / (2 * w) < n := Nat.div_lt_of_lt_mul (by rwa [Nat.mul_comm])
    have hr : k % w < w := Nat.mod_lt k hw
    have hle : (k / (2 * w) + 1) * w ≤ n * w := Nat.mul_le_mul_right w hq
    rw [Nat.succ_mul] at hle
    rw [if_pos hk, if_pos hk]
    exact hsame _ (.inl (by omega))
  · rw [if_neg hk, if_neg hk]
    exact hsame k (.inr (by omega))

-- Both halves of a pair are the sample of that number.
theorem getElem?_spread_pair {w n : Nat} {b : Bytes} (hb : n * (2 * w) ≤ b.size) {i j : Nat}
    (hi : i < n) (hj : j < w) :
    (spread w n b)[2 * w * i + j]? = b[w * i + j]? ∧
      (spread w n b)[2 * w * i + w + j]? = b[w * i + j]? := by
  have hw : 0 < w := by omega
  have hpair : (i + 1) * (2 * w) ≤ n * (2 * w) := Nat.mul_le_mul_right _ hi
  rw [Nat.succ_mul, Nat.mul_comm i] at hpair
  have hhalf : 2 * w * i = w * (2 * i) := by rw [Nat.mul_comm 2 w, Nat.mul_assoc]
  have hquotient : ∀ r, r < 2 * w → (2 * w * i + r) / (2 * w) = i := fun r hr => by
    rw [Nat.mul_add_div (by omega), Nat.div_eq_of_lt hr, Nat.add_zero]
  have hleft : (2 * w * i + j) % w = j := by
    rw [hhalf, Nat.mul_add_mod, Nat.mod_eq_of_lt hj]
  have hright : (2 * w * i + (w + j)) % w = j := by
    rw [hhalf, Nat.mul_add_mod, Nat.add_mod_left, Nat.mod_eq_of_lt hj]
  refine ⟨?_, ?_⟩
  · rw [getElem?_spread hw hb, if_pos (by omega), hquotient j (by omega), hleft, Nat.mul_comm i w]
  · rw [Nat.add_assoc, getElem?_spread hw hb, if_pos (by omega), hquotient _ (by omega), hright,
      Nat.mul_comm i w]

/-- Duplicating in place the mono samples of a buffer of even length, where the encoding is linear:

* the copies lie within the buffer, and every sample is read before anything is written over it; no
  check fails on the way;
* of every pair in the result both halves are the sample of that number;
* what does not make up a whole pair stays;
* the result hangs on the samples and on that rest alone, whatever else is in the buffer. -/
theorem widen_in_place {e : Encoding} {b : Bytes} (hlinear : e.isLinear = true)
    (heven : b.size % 2 = 0) :
    let w := e.bits / 8
    let samples := b.size / (2 * w)
    let rest := b.size - b.size % (2 * w)
    ∃ b', b.widen e = .ok b' ∧ b'.size = b.size ∧
      b' = (copies w samples).foldl (Copy.make w) b ∧
      (∀ c ∈ copies w samples, c.source + w ≤ b.size ∧ c.target + w ≤ b.size) ∧
      (∀ i < samples, ∃ before after, copies w samples = before ++ ⟨i * w, 2 * i * w⟩ :: after ∧
        ∀ c ∈ before, i * w + w ≤ c.target) ∧
      (∀ {τ : Type} (d : Desk τ), b.size < wordLimit → (Conduct.widen e b).run d = .ok b' d) ∧
      (∀ i < samples, ∀ j < w, ∃ x, b[w * i + j]? = some x ∧
        b'[2 * w * i + j]? = some x ∧ b'[2 * w * i + w + j]? = some x) ∧
      (∀ k, rest ≤ k → b'[k]? = b[k]?) ∧
      (∀ a : Bytes, a.size = b.size →
        (∀ k, k < w * samples ∨ rest ≤ k → a[k]? = b[k]?) → a.widen e = .ok b') := by
  intro w samples rest
  have hw : 0 < w := by
    have hbits := Encoding.bits_eq_of_isLinear hlinear
    have hpos := e.bits_pos
    show 0 < e.bits / 8
    omega
  have hwiden : ∀ a : Bytes, a.size = b.size → a.widen e = .ok (spread w samples a) := by
    intro a ha
    rw [widen, if_neg (by simp [hlinear]), if_neg (by omega), ha]
  -- the pairs end where the rest begins
  have hrest : samples * (2 * w) = rest := by
    have hdiv := Nat.div_add_mod' b.size (2 * w)
    show b.size / (2 * w) * (2 * w) = b.size - b.size % (2 * w)
    omega
  have hfit : samples * (2 * w) ≤ b.size := hrest ▸ Nat.sub_le _ _
  refine ⟨spread w samples b, hwiden b rfl, size_spread w samples b, spread_eq_foldl w samples b,
    fun c hc => ?_, fun i hi => copies_eq_append hi, fun d hsmall => ?_, fun i hi j hj => ?_,
    fun k hk => ?_, fun a hsize hsame => ?_⟩
  · have hin := fits_of_mem_copies hc
    exact ⟨Nat.le_trans hin.1 hfit, Nat.le_trans hin.2 hfit⟩
  · rw [Conduct.run_widen d e hsmall, hwiden b rfl]
  · obtain ⟨hleft, hright⟩ := getElem?_spread_pair hfit hi hj
    have hin : w * i + j < b.size := by
      have hnext : (i + 1) * w ≤ samples * w := Nat.mul_le_mul_right w hi
      have htwice : samples * (2 * w) = 2 * (samples * w) := Nat.mul_left_comm samples 2 w
      rw [Nat.succ_mul, Nat.mul_comm i w] at hnext
      omega
    rw [hleft, hright, Array.getElem?_eq_getElem hin]
    exact ⟨_, rfl, rfl, rfl⟩
  · rw [getElem?_spread hw hfit, if_neg (by omega)]
  · rw [hwiden a hsize, spread_congr hw hfit hsize]
    intro k hk
    rw [Nat.mul_comm samples w, hrest] at hk
    exact hsame k hk

/-- Two samples of sixteen bits in ten bytes, of which the last two are no pair. -/
theorem widen_of_ten_bytes :
    let b : Bytes := #[1, 2, 3, 4, 0, 0, 0, 0, 9, 10]
    Encoding.pcm16.isLinear = true ∧ b.size % 2 = 0 ∧
      ∃ b', b.widen .pcm16 = .ok b' ∧ b'.size = 10 ∧
        b'[4]? = some 3 ∧ b'[6]? = some 3 ∧ b'[9]? = some 10 := by
  intro b
  have heven : b.size % 2 = 0 := by decide
  obtain ⟨b', hwiden, hsize, -, -, -, -, hpairs, hrest, -⟩ :=
    widen_in_place (e := .pcm16) (b := b) rfl heven
  obtain ⟨x, hsample, hleft, hright⟩ := hpairs 1 (by decide) 0 (by decide)
  obtain rfl : x = 3 := Option.some.inj (hsample.symm.trans (by decide))
  exact ⟨rfl, heven, b', hwiden, hsize, hleft, hright, (hrest 9 (by decide)).trans (by decide)⟩

end Bytes

end Playout

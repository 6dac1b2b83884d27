import Mathlib.Order.Bounds.Defs
import Playout.Proofs.Opening

/-!
# How allocation ends

Six things can come of asking for buffers, and the first of them that applies is the one that is
reported: too many bits for a word, nothing to hold, an alignment that is none, more than half of
the address space, a refusal, and at last the buffers.

The size is worked out once and for all buffers.  It is the least one that holds all bits, grows
with the number of frames, and comes out the same where every step is taken in machine words.
-/

namespace Playout

/-! ## 1. The size of a buffer -/

namespace Format

variable {f : Format} {frames bytes : Nat}

/-- There is a size exactly when the bits can be counted in a word, and it is the least one that
holds them. -/
theorem byteSize?_eq_some_iff : f.byteSize? frames = some bytes ↔
    frames * f.frameBits < wordLimit ∧ IsLeast {n | frames * f.frameBits ≤ 8 * n} bytes := by
  constructor
  · intro h
    obtain ⟨hholds, hleast⟩ := byteSize?_eq_some h
    refine ⟨Nat.lt_of_not_le fun hle => ?_, ?_, fun n hn => ?_⟩
    · rw [byteSize?_eq_none_iff.mpr hle] at h
      cases h
    · show frames * f.frameBits ≤ 8 * bytes
      omega
    · change frames * f.frameBits ≤ 8 * n at hn
      omega
  · rintro ⟨hword, hholds, hleast⟩
    unfold byteSize?
    rw [if_pos hword]
    -- the rounded quotient holds all bits as well, and anything that does is no smaller
    have hle : bytes ≤ (frames * f.frameBits + 7) / 8 :=
      hleast (show frames * f.frameBits ≤ 8 * ((frames * f.frameBits + 7) / 8) by omega)
    change frames * f.frameBits ≤ 8 * bytes at hholds
    exact congrArg some (by omega)

theorem byteSize?_pos (hframes : frames ≠ 0) (h : f.byteSize? frames = some bytes) : 0 < bytes := by
  have hbits := Nat.mul_pos (Nat.pos_of_ne_zero hframes) f.frameBits_pos
  have hholds := (byteSize?_eq_some h).1
  omega

theorem byteSize?_le {frames' bytes' : Nat} (hle : frames ≤ frames')
    (h : f.byteSize? frames = some bytes) (h' : f.byteSize? frames' = some bytes') :
    bytes ≤ bytes' := by
  obtain ⟨-, -, hleast⟩ := byteSize?_eq_some_iff.mp h
  obtain ⟨-, hholds, -⟩ := byteSize?_eq_some_iff.mp h'
  exact hleast (Nat.le_trans (Nat.mul_le_mul_right f.frameBits hle) hholds)

theorem frameBits_le (f : Format) : f.frameBits ≤ 32 := by
  unfold frameBits
  cases f.encoding <;> cases f.layout <;> decide

/-- The size in machine words: a checked product, a quotient, and one more for what is left over. -/
def wordSize? (f : Format) (frames : UInt64) : Option UInt64 :=
  if frames.toNat * f.frameBits < wordLimit then
    let bits := frames * UInt64.ofNat f.frameBits
    some (bits / 8 + if bits % 8 = 0 then 0 else 1)
  else none

/-- No step of it wraps. -/
theorem map_toNat_wordSize? (f : Format) (frames : UInt64) :
    (f.wordSize? frames).map UInt64.toNat = f.byteSize? frames.toNat := by
  unfold wordSize? byteSize?
  split
  next hword =>
    have hframe := f.frameBits_le
    have hbits : (frames * UInt64.ofNat f.frameBits).toNat = frames.toNat * f.frameBits := by
      rw [UInt64.toNat_mul, UInt64.toNat_ofNat', Nat.mod_eq_of_lt (a := f.frameBits) (by omega)]
      exact Nat.mod_eq_of_lt hword
    have hquotient := UInt64.toNat_div (frames * UInt64.ofNat f.frameBits) 8
    have hrest := UInt64.toNat_mod (frames * UInt64.ofNat f.frameBits) 8
    rw [hbits] at hquotient hrest
    unfold wordLimit at hword
    simp only [Option.map_some, Option.some.injEq, UInt64.toNat_add]
    split
    next hzero =>
      rw [hzero] at hrest
      change (_ + 0) % 18446744073709551616 = _
      change _ = _ / 8 at hquotient
      change 0 = _ % 8 at hrest
      omega
    next hzero =>
      have hne : (frames * UInt64.ofNat f.frameBits % 8).toNat ≠ 0 := fun h =>
        hzero (UInt64.toNat_inj.mp h)
      rw [hrest] at hne
      change (_ + 1) % 18446744073709551616 = _
      change _ = _ / 8 at hquotient
      change _ % 8 ≠ 0 at hne
      omega
  next => rfl

end Format

/-! ## 2. Asking for buffers -/

theorem isPowerOfTwo_iff {n : Nat} : isPowerOfTwo n = true ↔ n.isPowerOfTwo := by
  unfold isPowerOfTwo Nat.isPowerOfTwo
  simp only [Bool.and_eq_true, bne_iff_ne, ne_eq, beq_iff_eq, Nat.one_shiftLeft]
  constructor
  · rintro ⟨-, h⟩
    exact ⟨_, h.symm⟩
  · rintro ⟨k, rfl⟩
    exact ⟨Nat.ne_of_gt (Nat.two_pow_pos k), by rw [Nat.log2_two_pow]⟩

section

variable {mem : Allocator} {bytes align : Nat}

theorem requestBuffers_of_misaligned (hbytes : bytes ≠ 0) (halign : ¬ align.isPowerOfTwo)
    (request count : Nat) :
    requestBuffers mem bytes align request (count + 1) = .error (.badAlignment align) := by
  have hno : isPowerOfTwo align = false := Bool.eq_false_iff.mpr (mt isPowerOfTwo_iff.mp halign)
  simp only [requestBuffers, requestBuffer, if_neg hbytes, hno, if_true]

theorem requestBuffers_of_tooLarge (hbytes : bytes ≠ 0) (halign : align.isPowerOfTwo)
    (hlarge : objectLimit < bytes + align) (request count : Nat) :
    requestBuffers mem bytes align request (count + 1) = .error .tooLarge := by
  simp only [requestBuffers, requestBuffer, if_neg hbytes, isPowerOfTwo_iff.mpr halign,
    if_pos hlarge, Bool.true_eq_false, if_false]

/-- What passes the checks is up to the manager, and any refusal ends it. -/
theorem requestBuffers_of_fits (hbytes : bytes ≠ 0) (halign : align.isPowerOfTwo)
    (hfits : bytes + align ≤ objectLimit) (request count : Nat) :
    requestBuffers mem bytes align request count =
      if ∃ k < count, mem (request + k) bytes align = false then .error (.outOfMemory bytes)
      else .ok () := by
  induction count generalizing request with
  | zero => simp [requestBuffers]
  | succ count ih =>
    have hone : requestBuffer mem request bytes align =
        if mem request bytes align = false then .error (.outOfMemory bytes) else .ok () := by
      simp only [requestBuffer, if_neg hbytes, isPowerOfTwo_iff.mpr halign,
        if_neg (Nat.not_lt.mpr hfits), Bool.true_eq_false, if_false]
    rw [requestBuffers, hone]
    -- the first refusal is the manager's answer to this request, or to one of those after it
    by_cases hrefused : mem request bytes align = false
    · rw [if_pos hrefused, if_pos ⟨0, Nat.succ_pos count, hrefused⟩]
    · rw [if_neg hrefused]
      show requestBuffers mem bytes align (request + 1) count = _
      rw [ih]
      have hlater : (∃ k < count, mem (request + 1 + k) bytes align = false) ↔
          ∃ k < count + 1, mem (request + k) bytes align = false := by
        constructor
        · rintro ⟨k, hk, h⟩
          exact ⟨k + 1, by omega, by rwa [← Nat.add_assoc, Nat.add_right_comm]⟩
        · rintro ⟨k, hk, h⟩
          cases k with
          | zero => exact absurd h hrefused
          | succ k => exact ⟨k, by omega, by rwa [Nat.add_right_comm, Nat.add_assoc]⟩
      simp only [hlater]

end

/-! ## 3. Fresh buffers -/

namespace Buffers

/-- How many buffers are asked for: the slots, and silence. -/
def requested (double : Bool) : Nat := if double then 3 else 2

/-- Buffers as they are before anybody has touched them. -/
structure Fresh (double : Bool) (bytes : Nat) (b : Buffers) : Prop where
  slots : b.handshake.members.length = if double then 2 else 1
  sizes : b.sizes = .replicate (requested double) bytes
  zero : b.isZero = true
  states : ∀ s, b.handshake.state s = .empty
  active : b.handshake.active = .a
  last : b.handshake.last = .a

theorem fresh_zeroed (double : Bool) (bytes : Nat) : (zeroed double bytes).Fresh double bytes where
  slots := by cases double <;> rfl
  sizes := by
    cases double <;>
      simp [sizes, zeroed, requested, Handshake.initial, Handshake.members, PerSlot.get,
        List.replicate]
  zero := by
    have hzero : ∀ n, (Bytes.zeros n).all (· == 0) = true := fun n =>
      Array.all_eq_true.mpr fun i hi => by simp [Bytes.zeros]
    have hempty : (#[] : Bytes).all (· == 0) = true := by simp
    cases double <;> simp only [isZero, zeroed, hzero, hempty, if_true, if_false, Bool.and_self,
      Bool.false_eq_true]
  states s := by cases s <;> rfl
  active := rfl
  last := rfl

variable {mem : Allocator} {f : Format} {frames bytes align : Nat} {double : Bool}

/-- The ends of an allocation. -/
inductive Ending (mem : Allocator) (f : Format) (frames : Nat) (double : Bool) (align : Nat) :
    Except AllocationError Buffers → Prop where
  -- The bits cannot be counted.
  | overflow (hbits : wordLimit ≤ frames * f.frameBits) :
      Ending mem f frames double align (.error .tooLarge)
  -- There is nothing to hold.
  | empty (hframes : frames = 0) : Ending mem f frames double align (.error .empty)
  | misaligned (hframes : frames ≠ 0) (hbits : frames * f.frameBits < wordLimit)
      (halign : ¬ align.isPowerOfTwo) :
      Ending mem f frames double align (.error (.badAlignment align))
  -- No memory could hold such a buffer.
  | tooLarge (bytes : Nat) (hframes : frames ≠ 0) (hbytes : f.byteSize? frames = some bytes)
      (halign : align.isPowerOfTwo) (hlarge : objectLimit < bytes + align) :
      Ending mem f frames double align (.error .tooLarge)
  -- The manager grants one of them not.
  | refused (bytes : Nat) (hframes : frames ≠ 0) (hbytes : f.byteSize? frames = some bytes)
      (halign : align.isPowerOfTwo) (hfits : bytes + align ≤ objectLimit)
      (hrefused : ∃ k < requested double, mem k bytes align = false) :
      Ending mem f frames double align (.error (.outOfMemory bytes))
  | granted (bytes : Nat) (hframes : frames ≠ 0) (hbytes : f.byteSize? frames = some bytes)
      (halign : align.isPowerOfTwo) (hfits : bytes + align ≤ objectLimit)
      (hgranted : ∀ k < requested double, mem k bytes align = true) :
      Ending mem f frames double align (.ok (zeroed double bytes))

theorem allocate_eq (h : f.byteSize? frames = some bytes) :
    allocate mem f frames double align =
      (requestBuffers mem bytes align 0 (requested double)).map fun _ => zeroed double bytes := by
  unfold allocate requested
  rw [h]
  dsimp only
  cases requestBuffers mem bytes align 0 (if double then 3 else 2) <;> rfl

theorem allocate_ends (mem : Allocator) (f : Format) (frames : Nat) (double : Bool) (align : Nat) :
    Ending mem f frames double align (allocate mem f frames double align) := by
  cases hbytes : f.byteSize? frames with
  | none =>
    unfold allocate
    rw [hbytes]
    exact .overflow (Format.byteSize?_eq_none_iff.mp hbytes)
  | some bytes =>
    obtain ⟨hbits, hholds, hleast⟩ := Format.byteSize?_eq_some_iff.mp hbytes
    obtain ⟨count, hcount⟩ : ∃ count, requested double = count + 1 := by
      cases double <;> exact ⟨_, rfl⟩
    rw [allocate_eq hbytes]
    by_cases hframes : frames = 0
    · have hnone : bytes ≤ 0 := hleast (show frames * f.frameBits ≤ 8 * 0 by simp [hframes])
      obtain rfl : bytes = 0 := Nat.le_zero.mp hnone
      rw [hcount, requestBuffers_ne_ok_of_empty]
      exact .empty hframes
    · have hsome : bytes ≠ 0 := Nat.ne_of_gt (Format.byteSize?_pos hframes hbytes)
      by_cases halign : align.isPowerOfTwo
      · by_cases hfits : bytes + align ≤ objectLimit
        · rw [requestBuffers_of_fits hsome halign hfits]
          simp only [Nat.zero_add]
          split
          next hrefused => exact .refused bytes hframes hbytes halign hfits hrefused
          next hgranted =>
            refine .granted bytes hframes hbytes halign hfits fun k hk => ?_
            exact Bool.of_not_eq_false fun h => hgranted ⟨k, hk, h⟩
        · rw [hcount, requestBuffers_of_tooLarge hsome halign (Nat.lt_of_not_le hfits)]
          exact .tooLarge bytes hframes hbytes halign (Nat.lt_of_not_le hfits)
      · rw [hcount, requestBuffers_of_misaligned hsome halign]
        exact .misaligned hframes hbits halign

/-- Allocation has six outcomes, and the first one that applies is the one that is reported. -/
theorem allocate_classified (mem : Allocator) (f : Format) (frames : Nat) (double : Bool)
    (align : Nat) :
    let r := allocate mem f frames double align
    let bits := frames * f.frameBits
    (wordLimit ≤ bits → r = .error .tooLarge) ∧
    (bits < wordLimit → ∃ bytes, f.byteSize? frames = some bytes ∧
      IsLeast {n | bits ≤ 8 * n} bytes ∧
      (r = .error .empty ↔ frames = 0) ∧
      (frames ≠ 0 →
        (r = .error (.badAlignment align) ↔ ¬ align.isPowerOfTwo) ∧
        (align.isPowerOfTwo →
          (r = .error .tooLarge ↔ objectLimit - align < bytes) ∧
          (bytes ≤ objectLimit - align →
            (r = .error (.outOfMemory bytes) ↔
              ∃ k < requested double, mem k bytes align = false) ∧
            ((∀ k < requested double, mem k bytes align = true) →
              ∃ b, r = .ok b ∧ b.Fresh double bytes))))) ∧
    (∀ words : UInt64, (f.wordSize? words).map UInt64.toNat = f.byteSize? words.toNat) ∧
    (∀ frames' bytes bytes', frames ≤ frames' → f.byteSize? frames = some bytes →
      f.byteSize? frames' = some bytes' → bytes ≤ bytes') := by
  intro r bits
  have hend : Ending mem f frames double align r := allocate_ends mem f frames double align
  clear_value r
  refine ⟨fun hover => ?_, fun hword => ?_, f.map_toNat_wordSize?,
    fun _ _ _ => Format.byteSize?_le⟩
  · have hnone := Format.byteSize?_eq_none_iff.mpr hover
    cases hend with
    | overflow | tooLarge => rfl
    | empty hframes =>
      change wordLimit ≤ frames * f.frameBits at hover
      rw [hframes, Nat.zero_mul] at hover
      exact absurd hover (by decide)
    | misaligned hframes hbits => omega
    | refused bytes hframes hbytes | granted bytes hframes hbytes =>
      rw [hnone] at hbytes
      cases hbytes
  · obtain ⟨bytes, hbytes⟩ : ∃ bytes, f.byteSize? frames = some bytes :=
      Option.ne_none_iff_exists'.mp fun h =>
        Nat.not_lt.mpr (Format.byteSize?_eq_none_iff.mp h) hword
    refine ⟨bytes, hbytes, (Format.byteSize?_eq_some_iff.mp hbytes).2, ?_⟩
    cases hend with
    | overflow hbits => omega
    | empty hframes => simp [hframes]
    | misaligned hframes hbits halign => simp [hframes, halign]
    | tooLarge n hframes hn halign hlarge =>
      rw [hbytes] at hn
      cases hn
      have hpos := Format.byteSize?_pos hframes hbytes
      have hover : objectLimit - align < bytes := by omega
      simp [hframes, halign, hover, Nat.not_le.mpr hover]
    | refused n hframes hn halign hfits hrefused =>
      rw [hbytes] at hn
      cases hn
      have hroom : bytes ≤ objectLimit - align := by omega
      simp [hframes, halign, hroom, hrefused, Nat.not_lt.mpr hroom]
    | granted n hframes hn halign hfits hgranted =>
      rw [hbytes] at hn
      cases hn
      have hroom : bytes ≤ objectLimit - align := by omega
      have hnone : ¬ ∃ k < requested double, mem k bytes align = false := by
        rintro ⟨k, hk, h⟩
        rw [hgranted k hk] at h
        cases h
      simp [hframes, halign, hroom, hnone, Nat.not_lt.mpr hroom, fresh_zeroed]

end Buffers
end Playout

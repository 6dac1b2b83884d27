import Playout.Session.Opening
import Playout.Proofs.Choice
import Playout.Proofs.Feed

/-!
# How opening ends

Opening a closed session has five ends, one for each stage that can fail and one for success.  The
stall threshold is not among them: no playing time is long enough for it to overflow.
-/

namespace Playout

/-! ## 1. Negotiation -/

-- What it means that `f` was agreed on.
theorem Format.negotiate_eq_ok {r f : Format} {t : Capabilities} (e : r.negotiate t = .ok f) :
    ∃ c, t.get? f.encoding = some c ∧ c.layouts.resolve r.layout f.encoding = some f.layout ∧
      c.rates.resolve r.frameRate = f.frameRate ∧ f.frameRate ≠ 0 := by
  obtain ⟨-, hfound⟩ := negotiate_eq_ok_iff.mp e
  obtain ⟨-, hplayed⟩ := findSome?_candidates_eq_some.mp hfound
  exact (playedAs?_eq_some.mp hplayed).2

-- Mono becomes stereo only where samples can be copied.
theorem Layouts.isLinear_of_resolve {s : Layouts} {e : Encoding}
    (h : s.resolve .mono e = some .stereo) : e.isLinear = true := by
  have hwidened := eq_of_resolve h
  split at hwidened
  next hstereo => exact hstereo.2.2
  next => cases hwidened

-- A buffer of linear stereo frames consists of whole pairs of samples.
theorem Format.byteSize?_stereo {f : Format} {frames bytes : Nat}
    (hlinear : f.encoding.isLinear = true) (hstereo : f.layout = .stereo)
    (h : f.byteSize? frames = some bytes) : bytes = frames * (2 * (f.encoding.bits / 8)) := by
  obtain ⟨hlow, hhigh⟩ := byteSize?_eq_some h
  have hbits := Encoding.bits_eq_of_isLinear hlinear
  have hframe : f.frameBits = 8 * (2 * (f.encoding.bits / 8)) := by
    rw [frameBits, hstereo]
    show f.encoding.bits * 2 = _
    omega
  rw [hframe, Nat.mul_left_comm] at hlow hhigh
  omega

/-! ## 2. Memory and time -/

theorem requestBuffers_ne_ok_of_empty (mem : Allocator) (align request count : Nat) :
    requestBuffers mem 0 align request (count + 1) = .error .empty := rfl

theorem Buffers.allocate_eq_ok {mem : Allocator} {f : Format} {frames align : Nat} {double : Bool}
    {b : Buffers} (e : allocate mem f frames double align = .ok b) :
    ∃ bytes, f.byteSize? frames = some bytes ∧ bytes ≠ 0 ∧ b = .zeroed double bytes := by
  unfold allocate at e
  split at e
  next => cases e
  next bytes hbytes =>
    split at e
    next => cases e
    next hrequest =>
      cases e
      refine ⟨bytes, hbytes, ?_, rfl⟩
      rintro rfl
      cases double <;> simp [requestBuffers_ne_ok_of_empty] at hrequest

-- Playing times are capped at a word of nanoseconds.
theorem Format.nanos_playTime_lt (f : Format) (frames : Nat) :
    (f.playTime frames).nanos < wordLimit := by
  unfold playTime
  split
  · exact (by decide : 0 < wordLimit)
  · exact Nat.lt_of_le_of_lt (Nat.min_le_right _ _) (by decide)

/-- Four times the longest playing time is still a duration. -/
theorem Format.times?_playTime (f : Format) (frames : Nat) :
    ∃ d, (f.playTime frames).times? stallBuffers = some d ∧
      d.nanos = stallBuffers * (f.playTime frames).nanos := by
  have hplay := f.nanos_playTime_lt frames
  have hfour : (f.playTime frames).nanos * stallBuffers < durationLimit := by
    unfold stallBuffers durationLimit wordLimit nanosPerSecond
    unfold wordLimit at hplay
    omega
  exact ⟨⟨_, hfour⟩, dif_pos hfour, Nat.mul_comm _ _⟩

/-- There is always a stall threshold. -/
theorem Settings.threshold?_isSome (c : Settings) (f : Format) :
    ∃ d, c.threshold? f = some d := by
  unfold threshold?
  cases c.stallThreshold with
  | some d => exact ⟨d, rfl⟩
  | none =>
    obtain ⟨d, hd, -⟩ := f.times?_playTime c.frameCount.toNat
    exact ⟨d, hd⟩

/-! ## 3. The five ends -/

namespace Session

variable {τ : Type} [Transport τ]

/-- The ends of opening a closed session. -/
inductive Opening (s : Session τ) (mem : Allocator) (requested : Format) :
    Except OpeningError Format × Session τ → Prop where
  -- No format suits both sides.
  | noFormat (u : NoCommonFormat)
      (hnegotiate : (s.settings.override requested).negotiate
        (Transport.capabilities s.transport) = .error u) :
      Opening s mem requested (.error (.noCommonFormat u), s)
  -- There is no memory.
  | noMemory (f : Format) (e : AllocationError)
      (hnegotiate : (s.settings.override requested).negotiate
        (Transport.capabilities s.transport) = .ok f)
      (hallocate : s.allocateFor mem f = .error e) :
      Opening s mem requested (.error (.allocation e), s)
  -- The transport creates no stream.
  | notCreated (f : Format) (b : Buffers) (e : Refusal) (t : τ)
      (hnegotiate : (s.settings.override requested).negotiate
        (Transport.capabilities s.transport) = .ok f)
      (hallocate : s.allocateFor mem f = .ok b)
      (hcreate : Transport.create s.transport b.bufferBytes = (.error e, t)) :
      Opening s mem requested (.error (.ofRefusal e), { s with transport := t })
  -- The transport does not take the feed.
  | notRegistered (f : Format) (b : Buffers) (handle : Handle) (e : Refusal) (t t' : τ)
      (hnegotiate : (s.settings.override requested).negotiate
        (Transport.capabilities s.transport) = .ok f)
      (hallocate : s.allocateFor mem f = .ok b)
      (hcreate : Transport.create s.transport b.bufferBytes = (.ok handle, t))
      (hregister : Transport.register t handle ⟨s.opens, f⟩ = (.error e, t')) :
      Opening s mem requested
        (.error (.ofRefusal e), { s with transport := Transport.destroy t' handle })
  -- There is a stream.
  | installed (f : Format) (b : Buffers) (handle : Handle) (t t' : τ) (threshold : Duration)
      (hnegotiate : (s.settings.override requested).negotiate
        (Transport.capabilities s.transport) = .ok f)
      (hallocate : s.allocateFor mem f = .ok b)
      (hcreate : Transport.create s.transport b.bufferBytes = (.ok handle, t))
      (hregister : Transport.register t handle ⟨s.opens, f⟩ = (.ok (), t'))
      (hthreshold : s.settings.threshold? f = some threshold) :
      Opening s mem requested
        (.ok f, { s with transport := t' }.install handle
          (Feed.ofBuffers b f s.settings.fallback)
          (duplicates (s.settings.override requested) f) threshold)

/-- Opening a closed session always ends, in one of the five ways. -/
theorem openStream_of_closed {s : Session τ} (hclosed : s.stream = none) (mem : Allocator)
    (requested : Format) :
    ∃ r, s.openStream mem requested = .ok r ∧ s.Opening mem requested r := by
  unfold openStream
  split
  next st hopen => rw [hclosed] at hopen; cases hopen
  next =>
    simp only
    split
    next u hnegotiate => exact ⟨_, rfl, .noFormat u hnegotiate⟩
    next f hnegotiate =>
      split
      next e hallocate => exact ⟨_, rfl, .noMemory f e hnegotiate hallocate⟩
      next b hallocate =>
        split
        next e t hcreate => exact ⟨_, rfl, .notCreated f b e t hnegotiate hallocate hcreate⟩
        next handle t hcreate =>
          split
          next e t' hregister =>
            exact ⟨_, rfl, .notRegistered f b handle e t t' hnegotiate hallocate hcreate hregister⟩
          next t' hregister =>
            obtain ⟨d, hd⟩ := s.settings.threshold?_isSome f
            simp only [hd]
            exact ⟨_, rfl, .installed f b handle t t' d hnegotiate hallocate hcreate hregister hd⟩

theorem openStream_of_open {s : Session τ} {st : Stream} (hopen : s.stream = some st)
    (mem : Allocator) (requested : Format) :
    s.openStream mem requested = .error (s.wrongState .openStream) := by
  simp [openStream, hopen]

omit [Transport τ] in
theorem allocateFor_eq_ok {s : Session τ} {mem : Allocator} {f : Format} {b : Buffers}
    (e : s.allocateFor mem f = .ok b) :
    ∃ bytes, f.byteSize? s.settings.frameCount.toNat = some bytes ∧ bytes ≠ 0 ∧
      b = .zeroed s.settings.doubleBuffered bytes :=
  Buffers.allocate_eq_ok e

/-- A stream that duplicates mono plays linear stereo, in buffers of whole pairs of samples. -/
theorem whole_pairs_of_duplicates {r f : Format} {t : Capabilities} {frames bytes : Nat}
    (hnegotiate : r.negotiate t = .ok f) (hbytes : f.byteSize? frames = some bytes)
    (hdup : duplicates r f = true) :
    f.encoding.isLinear = true ∧ bytes = frames * (2 * (f.encoding.bits / 8)) := by
  obtain ⟨c, -, hlayout, -⟩ := Format.negotiate_eq_ok hnegotiate
  simp only [duplicates, Bool.and_eq_true, decide_eq_true_eq] at hdup
  rw [hdup.1, hdup.2] at hlayout
  have hlinear := Layouts.isLinear_of_resolve hlayout
  exact ⟨hlinear, Format.byteSize?_stereo hlinear hdup.2 hbytes⟩

end Session

end Playout

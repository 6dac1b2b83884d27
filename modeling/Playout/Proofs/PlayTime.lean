import Mathlib.Data.Nat.ModEq
import Mathlib.Order.Basic
import Playout.Proofs.Bookkeeping
import Playout.Proofs.Epoch

/-!
# How long audio plays

A playing time is the whole nanoseconds that so many frames last, as long as a word holds their
number, and never more than that.  The stall threshold is a multiple of it, worked out on seconds and
nanoseconds apart; together they are more than a word of nanoseconds, and still no duration is too
short for them.
-/

namespace Playout

/-! ## 1. Whole nanoseconds -/

namespace Format

variable {f g : Format} {frames frames' d : Nat}

/-- So many frames last so many whole nanoseconds. -/
def Lasts (f : Format) (frames nanos : Nat) : Prop :=
  nanos * f.frameRate.toNat ≤ frames * nanosPerSecond ∧
    frames * nanosPerSecond < (nanos + 1) * f.frameRate.toNat

instance : Decidable (f.Lasts frames d) := inferInstanceAs (Decidable (_ ∧ _))

theorem toNat_frameRate_pos (hrate : f.frameRate ≠ 0) : 0 < f.frameRate.toNat := by
  apply Nat.pos_of_ne_zero
  intro hzero
  exact hrate (UInt32.toNat_inj.mp hzero)

-- Nothing lasts at a rate of zero.
theorem Lasts.frameRate_ne_zero (h : f.Lasts frames d) : f.frameRate ≠ 0 := by
  intro hzero
  have hlt := h.2
  rw [hzero] at hlt
  exact Nat.not_lt_zero _ hlt

theorem lasts_iff (hrate : f.frameRate ≠ 0) :
    f.Lasts frames d ↔ d = frames * nanosPerSecond / f.frameRate.toNat := by
  have hpos := toNat_frameRate_pos hrate
  rw [eq_comm, Nat.div_eq_iff hpos]
  unfold Lasts
  rw [Nat.succ_mul]
  omega

theorem nanos_playTime_of_stopped (hrate : f.frameRate = 0) : (f.playTime frames).nanos = 0 := by
  rw [playTime, if_pos hrate]
  rfl

/-- The playing time is the whole nanoseconds, or the greatest word. -/
theorem Lasts.nanos_playTime (h : f.Lasts frames d) :
    (f.playTime frames).nanos = min d (wordLimit - 1) := by
  have hrate := h.frameRate_ne_zero
  rw [playTime, if_neg hrate, (lasts_iff hrate).mp h]
  rfl

theorem exists_lasts (hrate : f.frameRate ≠ 0) (frames : Nat) : ∃ d, f.Lasts frames d :=
  ⟨_, (lasts_iff hrate).mpr rfl⟩

theorem Lasts.unique {d' : Nat} (h : f.Lasts frames d) (h' : f.Lasts frames d') : d = d' := by
  have hrate := h.frameRate_ne_zero
  rw [(lasts_iff hrate).mp h, (lasts_iff hrate).mp h']

/-! ## 2. More frames, and more of them in a second -/

theorem Lasts.mono {d' : Nat} (h : f.Lasts frames d) (h' : f.Lasts frames' d')
    (hle : frames ≤ frames') : d ≤ d' := by
  have hrate := h.frameRate_ne_zero
  rw [(lasts_iff hrate).mp h, (lasts_iff hrate).mp h']
  apply Nat.div_le_div_right
  exact Nat.mul_le_mul_right nanosPerSecond hle

theorem Lasts.anti {d' : Nat} (h : f.Lasts frames d) (h' : g.Lasts frames d')
    (hle : f.frameRate ≤ g.frameRate) : d' ≤ d := by
  have hrate := h.frameRate_ne_zero
  rw [(lasts_iff hrate).mp h, (lasts_iff h'.frameRate_ne_zero).mp h']
  apply Nat.div_le_div_left
  · exact UInt32.le_iff_toNat_le.mp hle
  · exact toNat_frameRate_pos hrate

/-- What two stretches last together is what each of them lasts, give or take the nanosecond that
their remainders may make up. -/
theorem Lasts.add {d' s : Nat} (h : f.Lasts frames d) (h' : f.Lasts frames' d')
    (hs : f.Lasts (frames + frames') s) : d + d' ≤ s ∧ s ≤ d + d' + 1 := by
  have hrate := h.frameRate_ne_zero
  have hpos := toNat_frameRate_pos hrate
  rw [(lasts_iff hrate).mp h, (lasts_iff hrate).mp h', (lasts_iff hrate).mp hs, Nat.add_mul,
    Nat.add_div hpos]
  split <;> omega

theorem nanos_playTime_mono (f : Format) (hle : frames ≤ frames') :
    (f.playTime frames).nanos ≤ (f.playTime frames').nanos := by
  by_cases hrate : f.frameRate = 0
  · rw [nanos_playTime_of_stopped hrate, nanos_playTime_of_stopped hrate]
  · obtain ⟨d, hd⟩ := exists_lasts hrate frames
    obtain ⟨d', hd'⟩ := exists_lasts hrate frames'
    have hmono := hd.mono hd' hle
    rw [hd.nanos_playTime, hd'.nanos_playTime]
    omega

theorem nanos_playTime_anti (hrate : f.frameRate ≠ 0) (hle : f.frameRate ≤ g.frameRate)
    (frames : Nat) : (g.playTime frames).nanos ≤ (f.playTime frames).nanos := by
  have hfaster : g.frameRate ≠ 0 := by
    intro hzero
    rw [hzero] at hle
    exact hrate (UInt32.le_antisymm hle (UInt32.zero_le))
  obtain ⟨d, hd⟩ := exists_lasts hrate frames
  obtain ⟨d', hd'⟩ := exists_lasts hfaster frames
  have hanti := hd.anti hd' hle
  rw [hd.nanos_playTime, hd'.nanos_playTime]
  omega

/-- As long as a word holds what two stretches last together. -/
theorem nanos_playTime_add (hword : ∀ d, f.Lasts (frames + frames') d → d < wordLimit) :
    (f.playTime frames).nanos + (f.playTime frames').nanos ≤ (f.playTime (frames + frames')).nanos ∧
      (f.playTime (frames + frames')).nanos ≤
        (f.playTime frames).nanos + (f.playTime frames').nanos + 1 := by
  by_cases hrate : f.frameRate = 0
  · simp only [nanos_playTime_of_stopped hrate]
    omega
  · obtain ⟨d, hd⟩ := exists_lasts hrate frames
    obtain ⟨d', hd'⟩ := exists_lasts hrate frames'
    obtain ⟨s, hs⟩ := exists_lasts hrate (frames + frames')
    have hsum := hd.add hd' hs
    have hfits := hword s hs
    rw [hd.nanos_playTime, hd'.nanos_playTime, hs.nanos_playTime]
    omega

end Format

/-! ## 3. Multiples -/

/-- The first number that a factor does not reach: two to the 32nd. -/
def factorLimit : Nat := 4294967296

/-- A number that a word holds. -/
def word? (n : Nat) : Option Nat := if n < wordLimit then some n else none

theorem word?_of_lt {n : Nat} (h : n < wordLimit) : word? n = some n := if_pos h

theorem word?_of_le {n : Nat} (h : wordLimit ≤ n) : word? n = none := if_neg (Nat.not_lt_of_le h)

namespace Duration

/-- The duration `k` times as long, from seconds and nanoseconds apart: a product of each, and the
whole seconds among the nanoseconds carried over.  Every result has to fit a word. -/
def timesParts? (d : Duration) (k : Nat) : Option Duration := do
  let nanos ← word? (d.subsecond * k)
  let seconds ← word? (d.seconds * k)
  let seconds ← word? (seconds + nanos / nanosPerSecond)
  ofParts? seconds (nanos % nanosPerSecond)

theorem nanos_eq (d : Duration) : d.nanos = d.seconds * nanosPerSecond + d.subsecond := by
  unfold seconds subsecond nanosPerSecond
  omega

-- The nanoseconds alone never overflow.
theorem subsecond_mul_lt (d : Duration) {k : Nat} (hk : k < factorLimit) :
    d.subsecond * k < wordLimit := by
  have hlimits : nanosPerSecond * factorLimit < wordLimit := by decide
  exact Nat.lt_of_le_of_lt (Nat.mul_le_mul d.subsecond_lt.le hk.le) hlimits

-- The carry makes whole seconds of the nanoseconds.
theorem mul_add_carry (d : Duration) (k : Nat) :
    (d.seconds * k + d.subsecond * k / nanosPerSecond) * nanosPerSecond +
      d.subsecond * k % nanosPerSecond = d.nanos * k := by
  have hsplit := Nat.div_add_mod (d.subsecond * k) nanosPerSecond
  rw [d.nanos_eq, Nat.add_mul, Nat.add_mul, Nat.mul_right_comm d.seconds,
    Nat.mul_comm (d.subsecond * k / nanosPerSecond), Nat.add_assoc, hsplit]

/-- The parts overflow exactly where the whole does. -/
theorem timesParts?_eq (d : Duration) {k : Nat} (hk : k < factorLimit) :
    d.timesParts? k = d.times? k := by
  rw [timesParts?, times?, word?_of_lt (d.subsecond_mul_lt hk), Option.bind_eq_bind,
    Option.bind_some, ← d.mul_add_carry k]
  generalize d.subsecond * k / nanosPerSecond = carry
  generalize d.subsecond * k % nanosPerSecond = rest
  rcases Nat.lt_or_ge (d.seconds * k + carry) wordLimit with hseconds | hseconds
  · have hproduct : d.seconds * k < wordLimit := by omega
    rw [word?_of_lt hproduct, Option.bind_some, word?_of_lt hseconds, Option.bind_some,
      ofParts?]
  · -- one of the two sums is too great, and so is the whole
    have hover : durationLimit ≤ (d.seconds * k + carry) * nanosPerSecond + rest :=
      Nat.le_add_right_of_le (Nat.mul_le_mul_right nanosPerSecond hseconds)
    rw [ofNanos?, dif_neg (Nat.not_lt_of_le hover)]
    rcases Nat.lt_or_ge (d.seconds * k) wordLimit with hproduct | hproduct
    · rw [word?_of_lt hproduct, Option.bind_some, word?_of_le hseconds, Option.bind_none]
    · rw [word?_of_le hproduct, Option.bind_none]

end Duration

/-! ## 4. The threshold of an open stream -/

/-- A threshold that is not configured is the playing time of a few buffers. -/
theorem Settings.nanos_of_threshold? {c : Settings} {f : Format} {d : Duration}
    (hderived : c.stallThreshold = none) (h : c.threshold? f = some d) :
    d.nanos = stallBuffers * (f.playTime c.frameCount.toNat).nanos := by
  obtain ⟨t, ht, hnanos⟩ := f.times?_playTime c.frameCount.toNat
  rw [threshold?, hderived] at h
  rw [← Option.some.inj (ht.symm.trans h), hnanos]

-- Whatever the settings, opening a stream never overflows.
theorem Session.openStream_ne_overflow {τ : Type} [Transport τ] (s : Session τ) (mem : Allocator)
    (requested : Format) :
    s.openStream mem requested ≠ .error (.defect .durationOverflow) := by
  cases hst : s.stream with
  | none =>
    obtain ⟨r, hr, -⟩ := openStream_of_closed hst mem requested
    rw [hr]
    exact nofun
  | some st =>
    rw [openStream_of_open hst, wrongState]
    exact nofun

namespace Playback

variable {τ : Type} {p q : Playback τ} {st : Stream}

theorem Keeping.continues {es : List Entry} (h : p.Keeping es q)
    (hst : p.session.stream = some st) :
    ∃ st', q.session.stream = some st' ∧ st.Continues st' := by
  cases h with
  | closed hturns hp =>
    rw [hst] at hp
    cases hp
  | running hturns u st' hp hq hcontinues =>
    rw [hst] at hp
    cases hp
    exact ⟨st', hq, hcontinues⟩

variable [Transport τ]

omit [Transport τ] in
theorem GoingOn.continues {stalled : Bool} {r : List Event × Playback τ}
    (h : p.GoingOn stalled r) (hst : p.session.stream = some st) :
    ∃ st', r.2.session.stream = some st' ∧ st.Continues st' := by
  cases h with
  | stuck => exact ⟨st, hst, .refl st⟩
  | ended hevs c hwait u st' hu hq hcontinues | started hevs hover u st' hu hq hcontinues =>
    rw [hst] at hu
    cases hu
    exact ⟨st', hq, hcontinues⟩

theorem continues_finished {c : Call} {stalled : Bool} {a : Answer} {s : Session τ}
    (h : p.session.Finishing st stalled c (.ok (some (a, s)))) :
    ∃ st', s.stream = some st' ∧ st.Continues st' := by
  have hhanded := st.continues_handedOver stalled
  cases h with
  | borrow => exact ⟨_, rfl, st.continues_borrowed stalled⟩
  | commit => exact ⟨_, rfl, hhanded⟩
  | start => exact ⟨_, rfl, hhanded.number, hhanded.threshold, hhanded.room⟩
  | refuse => exact ⟨_, rfl, hhanded.number, hhanded.threshold, rfl⟩
  | drain => exact ⟨_, rfl, st.continues_countStall stalled⟩

theorem Transition.continues {es : List Event} (h : p.Transition es q)
    (hst : p.session.stream = some st) (hes : .closed ∉ es) :
    ∃ st', q.session.stream = some st' ∧ st.Continues st' := by
  cases h with
  | idle | fault | skipped | entered | paused | resumed | notRestarted | configured =>
    exact ⟨st, hst, .refl st⟩
  | notOpened _ hclosed | opened _ hclosed =>
    rw [hst] at hclosed
    cases hclosed
  | closed | closing => exact absurd (List.mem_singleton.mpr rfl) hes
  | committing _ u st' hu _ _ hwiden =>
    rw [hst] at hu
    cases hu
    obtain ⟨b, rfl⟩ := Stream.exists_of_widenActive hwiden
    exact ⟨_, rfl, rfl, rfl, rfl⟩
  | wrote _ _ u _ hu | stopped _ u hu | restarted _ u hu | launched _ _ u hu =>
    rw [hst] at hu
    cases hu
    exact ⟨_, rfl, rfl, rfl, rfl⟩
  | finished c _ u hu stalled a s hend =>
    rw [hst] at hu
    cases hu
    exact continues_finished hend
  | handedOver _ u hu _ _ _ stalled =>
    rw [hst] at hu
    cases hu
    exact ⟨_, rfl, st.continues_handedOver stalled⟩

theorem continues_move (hst : p.session.stream = some st) (hroom : st.feed.bufferBytes ≠ 0)
    (m : Move) (hes : .closed ∉ (p.move m).1) :
    ∃ st', (p.move m).2.session.stream = some st' ∧ st.Continues st' := by
  have hroomy : p.Roomy := fun u hu => by
    rw [hst] at hu
    cases hu
    exact hroom
  cases m with
  | act a =>
    rcases p.step_cases a with ⟨k, c, -, hstep⟩ | htrans
    · show ∃ st', (p.step a).2.session.stream = some st' ∧ _
      rw [hstep]
      exact (keeping_device hroomy k c 0).continues hst
    · exact htrans.continues hst hes
  | refuse => exact (p.goingOn_refuse false).continues hst
  | stray k s => exact (keeping_stray hroomy k s).continues hst
  | abandon =>
    refine ⟨st, ?_, .refl st⟩
    show p.abandon.session.stream = some st
    unfold abandon
    split <;> exact hst
  | proceed stalled => exact (p.goingOn_proceed stalled).continues hst

/-- Until it is closed a stream keeps its threshold, whatever anybody does. -/
theorem continues_play (hst : p.session.stream = some st) (hroom : st.feed.bufferBytes ≠ 0)
    (ms : List Move) (hes : .closed ∉ (p.play ms).1) :
    ∃ st', (p.play ms).2.session.stream = some st' ∧ st.Continues st' := by
  induction ms generalizing p st with
  | nil => exact ⟨st, hst, .refl st⟩
  | cons m rest ih =>
    obtain ⟨st', hst', hmove⟩ :=
      continues_move hst hroom m fun hmem => hes (List.mem_append_left _ hmem)
    have hroom' : st'.feed.bufferBytes ≠ 0 := by rwa [hmove.room]
    obtain ⟨st'', hst'', hrest⟩ := ih hst' hroom' fun hmem => hes (List.mem_append_right _ hmem)
    exact ⟨st'', hst'', hrest.number.trans hmove.number, hrest.threshold.trans hmove.threshold,
      hrest.room.trans hmove.room⟩

theorem overflow_not_mem_openStream (p : Playback τ) (mem : Allocator) (requested : Format) :
    .fault (.defect .durationOverflow) ∉ (p.step (.command (.openStream mem requested))).1 := by
  cases hproducer : p.producer with
  | waiting | launching =>
    simp only [step, hproducer]
    exact List.not_mem_nil
  | free =>
    simp only [step, hproducer, command, openStream]
    intro hmem
    split at hmem
    next fault hfault =>
      cases List.mem_singleton.mp hmem
      exact p.session.openStream_ne_overflow mem requested hfault
    next => cases List.mem_singleton.mp hmem
    next => cases List.mem_singleton.mp hmem

/-- From an opening until the stream is closed its threshold is the playing time of a few buffers,
unless another one is configured. -/
theorem threshold_of_opened {mem : Allocator} {requested f : Format} {k : Nat} {w : Bool}
    (hderived : p.session.settings.stallThreshold = none)
    (hopen : (p.step (.command (.openStream mem requested))).1 = [.opened k f w])
    {ms : List Move}
    (hes : .closed ∉ ((p.step (.command (.openStream mem requested))).2.play ms).1) :
    ((p.step (.command (.openStream mem requested))).2.play ms).2.threshold =
      stallBuffers * (f.playTime p.session.settings.frameCount.toNat).nanos := by
  obtain ⟨s, hend, hq, -, -⟩ := opening_of_opened hopen
  cases hend with
  | installed f b handle t t' d hnegotiate hallocate hcreate hregister hthreshold =>
    obtain ⟨bytes, -, hbytes, rfl⟩ := Session.allocateFor_eq_ok hallocate
    have hroom : (Buffers.zeroed p.session.settings.doubleBuffered bytes).bufferBytes ≠ 0 := by
      show (Bytes.zeros bytes).size ≠ 0
      rwa [Bytes.size_zeros]
    obtain ⟨st, hst, hcontinues⟩ :=
      continues_play (congrArg (·.session.stream) hq) hroom ms hes
    have hkept : st.stallThreshold = d := hcontinues.threshold
    rw [threshold, hst, ← Settings.nanos_of_threshold? hderived hthreshold, ← hkept]

/-- Playing times are exact up to what a word of nanoseconds holds, and nothing that is made of them
overflows:

* at a rate of zero nothing plays;
* at any other rate there is exactly one number of nanoseconds that so many frames last, and the
  playing time is this number if a word holds it and the greatest word otherwise.  The nanoseconds
  that are divided by the rate are less than two words together hold;
* more frames do not play shorter, and a higher rate does not play longer;
* what two stretches play together is what each of them plays and at most a nanosecond more, unless
  they last longer than a word of nanoseconds;
* a few buffers' playing time is a duration, and seconds and nanoseconds multiplied apart give it
  without an overflow;
* so an opening does not overflow.  After one without a configured threshold the threshold is
  exactly that until the stream is closed, whatever the transport is and whatever happens. -/
theorem play_times_exact (f : Format) (frames : Nat) (p : Playback τ) (mem : Allocator)
    (requested : Format) :
    let c := p.session.settings
    let r := p.step (.command (.openStream mem requested))
    (f.frameRate = 0 → (f.playTime frames).nanos = 0) ∧
    (f.frameRate ≠ 0 → ∃! d, f.Lasts frames d) ∧
    (∀ d, f.Lasts frames d →
      (f.playTime frames).nanos = if d < wordLimit then d else wordLimit - 1) ∧
    (frames < wordLimit → frames * nanosPerSecond < wordLimit * wordLimit) ∧
    (∀ more, frames ≤ more → (f.playTime frames).nanos ≤ (f.playTime more).nanos) ∧
    (∀ g : Format, f.frameRate ≠ 0 → f.frameRate ≤ g.frameRate →
      (g.playTime frames).nanos ≤ (f.playTime frames).nanos) ∧
    (∀ rest, (∀ d, f.Lasts (frames + rest) d → d < wordLimit) →
      let apart := (f.playTime frames).nanos + (f.playTime rest).nanos
      let together := (f.playTime (frames + rest)).nanos
      apart ≤ together ∧ together ≤ apart + 1) ∧
    (∃ t : Duration, t.nanos = stallBuffers * (f.playTime frames).nanos ∧
      (f.playTime frames).times? stallBuffers = some t ∧
      (f.playTime frames).timesParts? stallBuffers = some t) ∧
    .fault (.defect .durationOverflow) ∉ r.1 ∧
    (c.stallThreshold = none → ∀ k played w, r.1 = [.opened k played w] →
      ∀ ms : List Move, .closed ∉ (r.2.play ms).1 →
        (r.2.play ms).2.threshold =
          stallBuffers * (played.playTime c.frameCount.toNat).nanos) := by
  intro c r
  refine ⟨Format.nanos_playTime_of_stopped, fun hrate => ?_, fun d hd => ?_, fun hframes => ?_,
    fun more => f.nanos_playTime_mono, fun g hrate hle => ?_, fun rest => ?_, ?_,
    p.overflow_not_mem_openStream mem requested, ?_⟩
  · obtain ⟨d, hd⟩ := Format.exists_lasts hrate frames
    exact ⟨d, hd, fun d' hd' => hd'.unique hd⟩
  · rw [hd.nanos_playTime]
    split <;> omega
  · have hnanos : nanosPerSecond < wordLimit := by decide
    exact Nat.mul_lt_mul'' hframes hnanos
  · exact Format.nanos_playTime_anti hrate hle frames
  · exact Format.nanos_playTime_add
  · obtain ⟨t, ht, hnanos⟩ := f.times?_playTime frames
    have hparts := (f.playTime frames).timesParts?_eq (by decide : stallBuffers < factorLimit)
    exact ⟨t, hnanos, ht, hparts.trans ht⟩
  · intro hderived k played w hopen ms hes
    exact threshold_of_opened hderived hopen hes

/-- At one frame a second as many frames as a word can count play for the greatest word of
nanoseconds, and four times as long is still a duration; at three frames a second the remainders of
one frame and of two more make up a nanosecond; and three frames at 8 kHz make a threshold of one
and a half milliseconds. -/
theorem play_times_at_the_limits :
    let slow : Format := ⟨.pcm16, .stereo, 1⟩
    let third : Format := ⟨.pcm16, .stereo, 3⟩
    let device : Hardware.Manual := ⟨{ pcm16 := some ⟨.both, .any⟩ }, 0, true⟩
    let p := new (Hardware.new (.manual device) .none) { Settings.standard with frameCount := 3 }
    let opening : Action := .command (.openStream .machine ⟨.pcm16, .mono, 8000⟩)
    let ms : List Move := [.act (.command (.enter .borrow)), .act (.finish false)]
    (slow.playTime 18446744073709551615).nanos = 18446744073709551615 ∧
      (∃ t, (slow.playTime 18446744073709551615).timesParts? stallBuffers = some t ∧
        t.nanos = 73786976294838206460) ∧
      (third.playTime 3).nanos = (third.playTime 1).nanos + (third.playTime 2).nanos + 1 ∧
      ((p.step opening).2.play ms).2.threshold = 1500000 := by
  intro slow third device p opening ms
  have hopen : (p.step opening).1 = [.opened 0 ⟨.pcm16, .mono, 8000⟩ false] := by decide +kernel
  have hes : .closed ∉ ((p.step opening).2.play ms).1 := by decide +kernel
  obtain ⟨-, -, hsaturated, -, -, -, -, ⟨t, hnanos, -, hparts⟩, -, hthreshold⟩ :=
    play_times_exact slow 18446744073709551615 p .machine ⟨.pcm16, .mono, 8000⟩
  obtain ⟨-, -, -, -, -, -, hsum, -, -, -⟩ :=
    play_times_exact third 1 p .machine ⟨.pcm16, .mono, 8000⟩
  have hslow : (slow.playTime 18446744073709551615).nanos = 18446744073709551615 :=
    hsaturated 18446744073709551615000000000 (by decide)
  -- the three frames last a second, which a word holds
  have hsecond : third.Lasts 3 1000000000 := by decide
  have htogether := hsum 2 fun d hd => by
    rw [hd.unique hsecond]
    decide
  have hmore : (third.playTime 1).nanos + (third.playTime 2).nanos < (third.playTime 3).nanos := by
    decide +kernel
  have hopened := hthreshold rfl 0 ⟨.pcm16, .mono, 8000⟩ false hopen ms hes
  refine ⟨hslow, ⟨t, hparts, ?_⟩, Nat.le_antisymm htogether.2 hmore, ?_⟩
  · rw [hnanos, hslow]
    rfl
  · rw [hopened]
    decide +kernel

end Playback

end Playout

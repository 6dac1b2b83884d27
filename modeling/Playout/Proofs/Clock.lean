import Mathlib.Order.Bounds.Basic
import Playout.Proofs.Device

/-!
# The clock of a simulated device

Without a period of its own a simulated device lets each worker pull as often as its buffer would be
played out.  The buffer is known by its bytes alone, so the number of frames has to be worked out
from the number of bits, and that number is taken in a machine word.
-/

namespace Playout

/-- The whole frames that a number of bits holds are as many as the quotient says. -/
theorem Format.isGreatest_frames (f : Format) (bits : Nat) :
    IsGreatest {n | n * f.frameBits ≤ bits} (bits / f.frameBits) :=
  ⟨Nat.div_mul_le_self bits f.frameBits, fun _ hn => (Nat.le_div_iff_mul_le f.frameBits_pos).mpr hn⟩

namespace Simulator

/-- What a worker plays: the samples of its feed, at the rate and in the layout that it was started
with. -/
def played (feed : FeedRef) (rate : UInt32) (stereo : Bool) : Format :=
  ⟨feed.format.encoding, if stereo then .stereo else .mono, rate⟩

variable {d : Simulator} {s : Stream} {feed : FeedRef}

/-- The period is the playing time of the frames that the buffer holds.  There is none exactly when
the bits of the buffer do not fit a word. -/
theorem periodFor?_eq_some_iff (hnatural : d.period = none) (rate : UInt32) (stereo : Bool)
    {p : Duration} :
    let format := played feed rate stereo
    d.periodFor? s feed rate stereo = some p ↔
      8 * s.bytes < wordLimit ∧ p = format.playTime (8 * s.bytes / format.frameBits) := by
  unfold periodFor? naturalPeriod? played
  rw [hnatural, Nat.mul_comm s.bytes 8]
  dsimp only
  split
  next hword => simp [hword, eq_comm]
  next hword => simp [hword]

/-- A stream is started with the playing time of the frames that its buffer holds, exactly as long
as the bits of the buffer can be counted in a word.  Beyond that the call fails, and the device
stays as it is. -/
theorem start_keeps_time (d : Simulator) (h : Handle) (s : Stream) (feed : FeedRef) (rate : UInt32)
    (stereo : Bool) (hs : d.stream? h = some s) (hidle : s.worker = none)
    (hfeed : s.feed = some feed) (hnatural : d.period = none) :
    let format := played feed rate stereo
    0 < format.frameBits ∧
    ∃ frames, IsGreatest {n | n * format.frameBits ≤ 8 * s.bytes} frames ∧
      ((∃ i, d.place? h = some i ∧
          d.perform (.start h rate stereo) = (.ok (.started (some (format.playTime frames))),
            { d with
              streams := d.streams.set i
                { s with worker := some ⟨format.playTime frames, feed, 0⟩ }
              monitor := { d.monitor with workers := d.monitor.workers + 1 } })) ↔
        8 * s.bytes < wordLimit) ∧
      (8 * s.bytes < wordLimit → frames * nanosPerSecond < wordLimit * wordLimit) ∧
      (wordLimit ≤ 8 * s.bytes → d.perform (.start h rate stereo) = (.error .overflow, d)) := by
  intro format
  obtain ⟨i, hi, hat⟩ := exists_place hs
  have hgreatest := format.isGreatest_frames (8 * s.bytes)
  refine ⟨format.frameBits_pos, _, hgreatest, ⟨?_, fun hword => ⟨i, hi, ?_⟩⟩, fun hword => ?_,
    fun hlarge => ?_⟩
  · rintro ⟨i', -, hstart⟩
    simp only [perform, start_of_place hi hat hidle hfeed] at hstart
    cases hperiod : d.periodFor? s feed rate stereo with
    | none =>
      rw [hperiod] at hstart
      cases hstart
    | some p => exact ((periodFor?_eq_some_iff hnatural rate stereo).mp hperiod).1
  · have hperiod : d.periodFor? s feed rate stereo = some _ :=
      (periodFor?_eq_some_iff hnatural rate stereo).mpr ⟨hword, rfl⟩
    simp only [perform, start_of_place hi hat hidle hfeed, hperiod]
    rfl
  · -- a frame has at least one bit
    have hfew : 8 * s.bytes / format.frameBits ≤ 8 * s.bytes := Nat.div_le_self _ _
    unfold wordLimit at *
    unfold nanosPerSecond
    omega
  · have hperiod : d.periodFor? s feed rate stereo = none :=
      Option.eq_none_iff_forall_ne_some.mpr fun p hp =>
        Nat.not_le.mpr ((periodFor?_eq_some_iff hnatural rate stereo).mp hp).1 hlarge
    simp only [perform, start_of_place hi hat hidle hfeed, hperiod]

/-- A device with one stream that is ready to be started. -/
def readied (bytes : Nat) (feed : FeedRef) : Simulator :=
  (((new .linear none).perform (.create bytes)).2.perform (.register ⟨0⟩ feed)).2

/-- The largest buffer whose bits can be counted. -/
theorem start_keeps_time_of_largest :
    let feed : FeedRef := ⟨0, ⟨.adpcm4, .mono, 8000⟩⟩
    let d := readied 2305843009213693951 feed
    (d.perform (.start ⟨0⟩ 4000000000 false)).1 =
      .ok (.started (some ((played feed 4000000000 false).playTime 4611686018427387902))) := by
  intro feed d
  obtain ⟨-, frames, hgreatest, hstart, -, -⟩ := start_keeps_time d ⟨0⟩
    ⟨⟨0⟩, 2305843009213693951, some feed, none⟩ feed 4000000000 false (by decide) rfl rfl rfl
  obtain ⟨i, -, hperformed⟩ := hstart.mpr (by decide)
  have hframes := hgreatest.unique (Format.isGreatest_frames _ _)
  have hquotient : 8 * 2305843009213693951 / (played feed 4000000000 false).frameBits =
      4611686018427387902 := by decide
  rw [hperformed, hframes, hquotient]

/-- One byte more, and a stream is not started, though its buffer could be played. -/
theorem start_of_uncountable :
    let feed : FeedRef := ⟨0, ⟨.pcm16, .stereo, 48000⟩⟩
    let d := readied 2305843009213693952 feed
    d.stream? ⟨0⟩ = some ⟨⟨0⟩, 2305843009213693952, some feed, none⟩ ∧
      d.perform (.start ⟨0⟩ 4000000000 true) = (.error .overflow, d) ∧
      ((played feed 4000000000 true).playTime 576460752303423488).nanos = 144115188075855872 := by
  decide +kernel

end Simulator

end Playout

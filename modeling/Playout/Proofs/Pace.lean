import Playout.Proofs.PlayTime
import Playout.Proofs.Tenancy

/-!
# The pace of a session

A simulated device knows the buffers of a stream by their bytes.  From these it works out how many
frames they hold, and lets its worker pull as often as so many frames are played out.  For buffers
that a session has asked for, the number comes out right: bytes were rounded up, frames are rounded
down, and between the two at most the half byte of an odd frame is gained.
-/

namespace Playout

/-! ## 1. Frames of whole bytes -/

namespace Format

variable {f : Format} {frames bytes : Nat}

/-- Either frames fill whole bytes, or bytes hold whole frames. -/
theorem frameBits_dvd_or (f : Format) : f.frameBits ∣ 8 ∨ 8 ∣ f.frameBits := by
  rcases f with ⟨encoding, layout, rate⟩
  cases encoding <;> cases layout <;> simp [frameBits, Encoding.bits, Layout.count]

/-- The bytes for a number of frames hold whole frames. -/
theorem frameBits_dvd_of_byteSize? (h : f.byteSize? frames = some bytes) :
    f.frameBits ∣ 8 * bytes := by
  obtain ⟨hlow, hhigh⟩ := byteSize?_eq_some h
  obtain hdvd | hdvd := f.frameBits_dvd_or
  · exact Dvd.dvd.mul_right hdvd bytes
  · -- no byte is left over
    obtain ⟨k, hk⟩ := hdvd
    have hexact : 8 * bytes = frames * f.frameBits := by
      rw [hk, Nat.mul_left_comm] at hlow hhigh ⊢
      omega
    rw [hexact]
    exact Nat.dvd_mul_left _ _

/-- The frames that fill these bytes: the least number, from the one asked for on, that takes whole
bytes. -/
theorem isLeast_frames (h : f.byteSize? frames = some bytes) :
    IsLeast {n | frames ≤ n ∧ 8 ∣ n * f.frameBits} (8 * bytes / f.frameBits) := by
  have hwhole : 8 * bytes / f.frameBits * f.frameBits = 8 * bytes :=
    Nat.div_mul_cancel (frameBits_dvd_of_byteSize? h)
  obtain ⟨hlow, hhigh⟩ := byteSize?_eq_some h
  have hpos := f.frameBits_pos
  constructor
  · refine ⟨Nat.le_of_mul_le_mul_right ?_ hpos, ?_⟩
    · rw [hwhole, Nat.mul_comm 8]
      exact hlow
    · rw [hwhole]
      exact Nat.dvd_mul_right 8 bytes
  · rintro n ⟨hn, k, hk⟩
    refine Nat.le_of_mul_le_mul_right ?_ hpos
    -- so many frames take at least as many bytes
    have hmore := Nat.mul_le_mul_right f.frameBits hn
    rw [hwhole, hk]
    omega

/-- Only an odd number of mono frames of half a byte leaves room for one more. -/
theorem frames_of_byteSize? (h : f.byteSize? frames = some bytes) :
    8 * bytes / f.frameBits =
      if f.encoding = .adpcm4 ∧ f.layout = .mono ∧ frames % 2 = 1 then frames + 1 else frames := by
  have hwhole : 8 * bytes / f.frameBits * f.frameBits = 8 * bytes :=
    Nat.div_mul_cancel (frameBits_dvd_of_byteSize? h)
  obtain ⟨hlow, hhigh⟩ := byteSize?_eq_some h
  generalize 8 * bytes / f.frameBits = n at hwhole ⊢
  rcases f with ⟨encoding, layout, rate⟩
  unfold frameBits at hwhole hlow hhigh
  cases encoding <;> cases layout <;> simp only [Encoding.bits, Layout.count] at hwhole hlow hhigh
  case adpcm4.mono =>
    simp only [true_and]
    split <;> omega
  all_goals
    rw [if_neg (by simp)]
    omega

end Format

/-! ## 2. What lasts -/

/-- The same stream later on, by what its pace depends on. -/
structure Stream.Persists (st st' : Stream) : Prop extends Continues st st' where
  format : st'.format = st.format

theorem Stream.Persists.refl (st : Stream) : st.Persists st := ⟨.refl st, rfl⟩

theorem Stream.Persists.trans {st st' st'' : Stream} (h : st.Persists st')
    (h' : st'.Persists st'') : st.Persists st'' where
  number := h'.number.trans h.number
  threshold := h'.threshold.trans h.threshold
  room := h'.room.trans h.room
  format := h'.format.trans h.format

namespace Playback

variable {p : Playback Simulator} {st : Stream}

theorem persists_beat (hst : p.session.stream = some st) (hroom : st.feed.bufferBytes ≠ 0)
    (b : Beat) (hes : .closed ∉ (p.beat b).1) :
    ∃ st', (p.beat b).2.session.stream = some st' ∧ st.Persists st' := by
  cases b with
  | move m =>
    obtain ⟨st', hst', hcontinues⟩ := continues_move hst hroom m hes
    obtain ⟨u, hu, hlasting⟩ := (Endures.move hst m hes).lasting
    rw [hst'] at hu
    cases hu
    exact ⟨st', hst', hcontinues, hlasting.format⟩
  | round =>
    have hend := p.round_ends
    show ∃ st', p.pullRound.2.session.stream = some st' ∧ _
    generalize p.pullRound = r at hend
    cases hend with
    | nothing hnone =>
      rw [hst] at hnone
      cases hnone
    | faulted => exact ⟨st, hst, .refl st⟩
    | pulled u hu d f hround =>
      rw [hst] at hu
      cases hu
      have hsame := (Simulator.iterate_eq_ok hround).1
      exact ⟨_, rfl, ⟨rfl, rfl, hsame.bufferBytes⟩, hsame.format⟩
  | elsewhere k f =>
    refine ⟨st, ?_, .refl st⟩
    show (p.pullElsewhere k f).2.session.stream = some st
    unfold pullElsewhere
    split <;> exact hst

theorem persists_beats (hst : p.session.stream = some st) (hroom : st.feed.bufferBytes ≠ 0)
    (bs : List Beat) (hes : .closed ∉ (p.beats bs).1) :
    ∃ st', (p.beats bs).2.session.stream = some st' ∧ st.Persists st' := by
  induction bs generalizing p st with
  | nil => exact ⟨st, hst, .refl st⟩
  | cons b rest ih =>
    obtain ⟨st', hst', hbeat⟩ :=
      persists_beat hst hroom b fun hmem => hes (List.mem_append_left _ hmem)
    have hroom' : st'.feed.bufferBytes ≠ 0 := by rwa [hbeat.room]
    obtain ⟨st'', hst'', hrest⟩ := ih hst' hroom' fun hmem => hes (List.mem_append_right _ hmem)
    exact ⟨st'', hst'', hbeat.trans hrest⟩

/-! ## 3. The pace of a stream -/

/-- A stream whose worker pulls once in this time for as long as the stream plays.  At any other time
a start succeeds and makes it pull so. -/
structure Paced (p : Playback Simulator) (st : Stream) (time : Duration) : Prop where
  playing : st.phase = .playing → ∃ s w, p.session.transport.stream? st.handle = some s ∧
    s.worker = some w ∧ w.period = time
  idle : st.phase ≠ .playing → ∃ d',
    p.session.transport.perform
      (.start st.handle st.format.frameRate st.format.layout.isStereo) =
        (.ok (.started (some time)), d') ∧
    p.startOf st = (.ok (), d')

/-- A stream with a name of its own has the pace of its buffer. -/
theorem Tends.paced {others : List Handle} (h : Tends others p) (hst : p.session.stream = some st)
    (hname : st.handle ∉ others) (hword : 8 * st.feed.bufferBytes < wordLimit) :
    p.Paced st (st.format.playTime (8 * st.feed.bufferBytes / st.format.frameBits)) := by
  obtain ⟨hnatural, s, hown, hserves⟩ := h.serves hst hname
  constructor
  case playing =>
    intro hplaying
    obtain ⟨w, hw, hperiod⟩ := hserves.busy (Stream.isRunning_of_playing hplaying)
    exact ⟨s, w, hown.stream? hserves hname, hw, hperiod⟩
  case idle =>
    intro hidle
    obtain ⟨d', hstart, -, -⟩ := hown.start_of_idle hserves hname hnatural
      (Stream.isRunning_of_ne hidle) hword
    refine ⟨d', ?_, ?_⟩
    · simp only [Simulator.perform, hstart]
    · rw [startOf, Simulator.transport_start, hstart]

/-- The stream of a session on a simulated device without a fixed period, from its opening until it is
closed.  Let `frames` be the configured number of frames, in a format that takes `bytes` bytes for
them, few enough for their bits to be counted in a word, as fewer than two to the 60th are.  Whatever
anybody does before and after the opening:

* the device plays the least number of frames, from the configured one on, that takes whole bytes;
  these are the configured ones and, with an odd number of mono frames of half a byte, one more;
* these do not play shorter than the configured ones, and a threshold that is not configured is at
  most a few times as long;
* on a device that had no streams before, their playing time is the pace of the stream;
* and so it is on any other device, unless a stream of somebody else bears the name of this one, after
  all names have been given out: then every call goes to that one. -/
theorem nominal_speed {d : Simulator} {settings : Settings} {before after : List Beat}
    {mem : Allocator} {requested f : Format} {k : Nat} {w : Bool} {bytes : Nat}
    (hnatural : d.period = none) {p q : Playback Simulator}
    (hp : ((new d settings).beats before).2 = p)
    (hopen : p.step (.command (.openStream mem requested)) = ([.opened k f w], q))
    (hbytes : f.byteSize? p.session.settings.frameCount.toNat = some bytes)
    (hword : 8 * bytes < wordLimit) (hclosed : .closed ∉ (q.beats after).1) :
    let frames := p.session.settings.frameCount.toNat
    let played := 8 * bytes / f.frameBits
    let r := (q.beats after).2
    IsLeast {n | frames ≤ n ∧ 8 ∣ n * f.frameBits} played ∧
      played = (if f.encoding = .adpcm4 ∧ f.layout = .mono ∧ frames % 2 = 1 then frames + 1
        else frames) ∧
      (f.playTime frames).nanos ≤ (f.playTime played).nanos ∧
      ∃ st, r.session.stream = some st ∧ st.format = f ∧
        (p.session.settings.stallThreshold = none →
          st.stallThreshold.nanos ≤ stallBuffers * (f.playTime played).nanos) ∧
        (d.streams = [] → r.Paced st (f.playTime played)) ∧
        (st.handle ∉ d.streams.map (·.handle) → r.Paced st (f.playTime played)) := by
  intro frames played r
  have hleast : IsLeast {n | frames ≤ n ∧ 8 ∣ n * f.frameBits} played :=
    Format.isLeast_frames hbytes
  have hslower := f.nanos_playTime_mono hleast.1.1
  refine ⟨hleast, Format.frames_of_byteSize? hbytes, hslower, ?_⟩
  obtain ⟨u, hend, hu, -, -⟩ := opening_of_opened (congrArg Prod.fst hopen)
  rw [hopen] at hu
  have htends : Tends (d.streams.map (·.handle)) r := by
    have hstep := ((Tends.start d settings hnatural).beats before).move
      (.act (.command (.openStream mem requested)))
    rw [hp] at hstep
    have hq : (p.move (.act (.command (.openStream mem requested)))).2 = q :=
      congrArg Prod.snd hopen
    rw [hq] at hstep
    exact hstep.beats after
  cases hend with
  | installed f b handle t t' threshold _ hallocate _ _ hthreshold =>
    obtain ⟨bytes', hbytes', hpos, rfl⟩ := Session.allocateFor_eq_ok hallocate
    rw [hbytes] at hbytes'
    cases hbytes'
    have hsize : (Buffers.zeroed p.session.settings.doubleBuffered bytes).bufferBytes = bytes :=
      Bytes.size_zeros bytes
    have hfirst := congrArg (·.session.stream) hu
    obtain ⟨st, hst, hpersists⟩ :=
      persists_beats hfirst (by rw [← hsize] at hpos; exact hpos) after hclosed
    have hformat : st.format = f := hpersists.format
    have hroom : st.feed.bufferBytes = bytes := hpersists.room.trans hsize
    have hplayed : st.format.playTime (8 * st.feed.bufferBytes / st.format.frameBits) =
        f.playTime played := by rw [hformat, hroom]
    have hpaced : st.handle ∉ d.streams.map (·.handle) → r.Paced st (f.playTime played) :=
      fun hname => hplayed ▸ htends.paced hst hname (hroom ▸ hword)
    refine ⟨st, hst, hformat, fun hderived => ?_, fun hnew => hpaced ?_, hpaced⟩
    · have hnanos := Settings.nanos_of_threshold? hderived hthreshold
      have hkept : st.stallThreshold = threshold := hpersists.threshold
      rw [hkept, hnanos]
      exact Nat.mul_le_mul_left stallBuffers hslower
    · -- nobody else has a name
      rw [hnew]
      exact List.not_mem_nil

/-- Three mono frames of half a byte on a device that has had a stream before: two bytes hold four
frames, and so the worker pulls every half millisecond. -/
theorem pace_of_odd_frames :
    let d := ((Simulator.new { adpcm4 := some ⟨.both, .any⟩ } none).create 64).2
    let f : Format := ⟨.adpcm4, .mono, 8000⟩
    let p := new d { Settings.standard with frameCount := 3 }
    let q := (p.step (.command (.openStream .machine f))).2
    let after : List Beat := [.move (.act (.command (.enter .borrow))), .move (.act (.finish false)),
      .move (.act (.command (.enter .commit))), .move (.act (.finish false)), .round]
    let r := (q.beats after).2
    ∃ st s w, r.session.stream = some st ∧ r.session.transport.stream? st.handle = some s ∧
      s.worker = some w ∧ w.period.nanos = 500000 ∧
      st.stallThreshold.nanos ≤ stallBuffers * w.period.nanos := by
  intro d f p q after r
  have hopen : p.step (.command (.openStream .machine f)) = ([.opened 0 f false], q) :=
    Prod.ext (by decide +kernel) rfl
  have hclosed : .closed ∉ (q.beats after).1 := by decide +kernel
  have hplaying : r.session.stream.map (fun st => (st.handle, st.phase)) =
      some (⟨1⟩, .playing) := by decide +kernel
  have hnatural : d.period = none := by decide +kernel
  have hp : ((new d { Settings.standard with frameCount := 3 }).beats []).2 = p := rfl
  have hbytes : f.byteSize? p.session.settings.frameCount.toNat = some 2 := by decide +kernel
  obtain ⟨-, hplayed, -, st, hst, -, hthreshold, -, hpace⟩ :=
    nominal_speed hnatural hp hopen hbytes (by decide) hclosed
  rw [hst, Option.map_some] at hplaying
  obtain ⟨hhandle, hphase⟩ := Prod.mk.inj (Option.some.inj hplaying)
  have hname : st.handle ∉ d.streams.map (·.handle) := by
    rw [hhandle]
    decide +kernel
  obtain ⟨s, w, hs, hw, hperiod⟩ := (hpace hname).playing hphase
  refine ⟨st, s, w, hst, hs, hw, ?_, ?_⟩
  · rw [hperiod, hplayed]
    decide +kernel
  · rw [hperiod]
    exact hthreshold rfl

end Playback

end Playout

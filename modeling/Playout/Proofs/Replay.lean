import Playout.Proofs.Reachable
import Playout.Bench.Hardware

/-!
# Replays

An underrun of a feed that falls back on replays shows the slot of the last claim, or silence while
that slot is in use.  What the slot holds is known exactly: the last buffer that a device took, and
before the first one the last buffer whose commit was refused.  So a refused buffer can be heard, and
only then.
-/

namespace Playout

/-- How much a step of a device asks for, if it pulls. -/
def ConsumerStep.asks : ConsumerStep → Option Nat
  | .pull n => some n
  | .hold n _ => some n
  | .peek _ | .drop _ => none

namespace Feed

variable {f : Feed} {n : Nat}

-- An underrun of a feed that replays: the slot of the last claim if it is empty, else silence.
theorem read_underrun (hback : f.fallback = .replay) (hunderrun : (f.pull n).1.isUnderrun = true) :
    (f.pull n).2.read (f.pull n).1 =
      if f.handshake.state f.handshake.last = .empty
      then (f.content f.handshake.last).first (f.grant n) else f.silence.first (f.grant n) := by
  have hpull := f.pulled n
  generalize f.pull n = r at hpull hunderrun
  cases hpull with
  | nothing => simp [Pull.isUnderrun, Pull.silence] at hunderrun
  | delivered s hgrant => simp [Pull.isUnderrun, hgrant] at hunderrun
  | replayed hgrant hnone hfallback hempty =>
    rw [if_pos hempty]
    rfl
  | silent hgrant hnone hreplay =>
    rw [if_neg (hreplay hback)]
    rfl

end Feed

/-- What a replay may show: the first bytes of the last buffer that was taken, or silence. -/
def Ledger.Allows (l : Ledger) (n : Nat) (data : Bytes) : Prop :=
  data = .zeros data.size ∨ ∃ page, l.played = some page ∧ data = page.first n

namespace Ledger

variable {l : Ledger}

theorem played_eq_none (h : l.taken.length ≤ l.handed.length) :
    l.played = none ↔ l.taken = [] := by
  rw [played, List.getLast?_eq_none_iff, List.take_eq_nil_iff, List.length_eq_zero_iff]
  constructor
  · rintro (htaken | hhanded)
    · exact htaken
    · rw [hhanded] at h
      exact List.eq_nil_of_length_eq_zero (Nat.le_zero.mp h)
  · exact .inl

/-- The echo is allowed unless nothing has been taken and a refused buffer can be heard. -/
theorem allows_echo_iff (h : l.taken.length ≤ l.handed.length) (n bytes : Nat) :
    l.Allows n ((l.echo bytes).first n) ↔
      ¬ (l.taken = [] ∧ ∃ page, l.refused.getLast? = some page ∧
        page.first n ≠ .zeros (page.first n).size) := by
  cases hplayed : l.played with
  | some page =>
    have htaken : l.taken ≠ [] := by
      intro hempty
      rw [(played_eq_none h).mpr hempty] at hplayed
      cases hplayed
    have hecho : l.echo bytes = page := by rw [echo, hplayed]; rfl
    rw [hecho]
    exact ⟨fun _ hbad => htaken hbad.1, fun _ => .inr ⟨page, hplayed, rfl⟩⟩
  | none =>
    have htaken := (played_eq_none h).mp hplayed
    cases hrefused : l.refused.getLast? with
    | none =>
      have hecho : l.echo bytes = .zeros bytes := by rw [echo, hplayed, hrefused]; rfl
      rw [hecho, Bytes.first_zeros]
      refine ⟨fun _ hbad => ?_, fun _ => .inl (by rw [Bytes.size_zeros])⟩
      obtain ⟨-, page, hpage, -⟩ := hbad
      cases hpage
    | some page =>
      have hecho : l.echo bytes = page := by rw [echo, hplayed, hrefused]; rfl
      rw [hecho]
      -- nothing was taken, so the echo is allowed only if it is silent
      constructor
      · rintro (hzero | ⟨other, hother, -⟩) ⟨-, page', hpage, hloud⟩
        · cases hpage
          exact hloud hzero
        · rw [hplayed] at hother
          cases hother
      · intro hquiet
        by_cases hzero : page.first n = .zeros (page.first n).size
        · exact .inl hzero
        · exact absurd ⟨htaken, page, rfl, hzero⟩ hquiet

end Ledger

namespace Playback

variable {τ : Type} {tr : List Event} {p : Playback τ} {k n : Nat} {f : Feed}

-- A pull is answered by what the feed shows.
theorem reply_of_asks {c : ConsumerStep} (hc : c.asks = some n) (hf : p.feed? k = some f)
    (hreply : (p.consume k c).1 ≠ .nothing) :
    (p.consume k c).1 = (f.pull n).2.view (f.pull n).1 := by
  have hend := p.consumption k c
  generalize p.consume k c = r at hend hreply
  cases hend with
  | nothing => exact absurd rfl hreply
  | pulled m g g' hg hdrop =>
    rw [hf] at hg
    cases hg
    cases hc
    rfl
  | held m name g hname hg =>
    rw [hf] at hg
    cases hg
    cases hc
    rfl
  | peeked => cases hc
  | dropped => cases hc
  | faulted => cases hc

-- The bytes of an underrun, by the ledger.
theorem Sound.underrun_eq (hs : Sound tr p) (hf : p.feed? k = some f)
    (hback : f.fallback = .replay) {c : ConsumerStep} (hc : c.asks = some n) {data : Bytes}
    (hreply : (p.consume k c).1 = .audio data 0 true) :
    data = if f.handshake.state f.handshake.last = .empty
      then ((ledger k tr).echo f.bufferBytes).first n else .zeros (min n f.bufferBytes) := by
  have hx := hs.lines k f hf
  have hview := reply_of_asks hc hf (by rw [hreply]; simp)
  rw [hreply] at hview
  injection hview with hdata hdelivered hunderrun
  have hread := Feed.read_underrun (n := n) hback hunderrun.symm
  rw [hdata, hread]
  split
  next hempty =>
    have hecho : f.content f.handshake.last = (ledger k tr).echo f.bufferBytes :=
      hx.faithful.echo (.inl hempty)
    have hsize : (f.content f.handshake.last).size = f.bufferBytes :=
      hx.sized.content _ hx.orderly.shaped.last_mem
    rw [← hecho, Feed.grant, ← hsize, Bytes.first_min_size]
  next =>
    have hsilence : f.silence = .zeros f.bufferBytes := hx.sized.silence
    rw [hsilence, Bytes.first_zeros, Feed.grant, Nat.min_assoc, Nat.min_self]

variable [Transport τ]

/-- After every run, for every feed that falls back on replays, an underrun shows exactly the first
bytes of the last buffer that was taken, or else of the last one whose commit was refused, or else
silence; and it is silent while the slot of the last claim is in use.  So it shows what it may unless
nothing has been taken, the first slot is empty, and what is asked for of the last refused buffer is
not silence. -/
theorem replay_exact (t : τ) (s : Settings) (as : List Action) (k n : Nat) (f : Feed)
    (c : ConsumerStep) (data : Bytes) (hf : ((new t s).run as).2.feed? k = some f)
    (hback : f.fallback = .replay) (hc : c.asks = some n)
    (hreply : (((new t s).run as).2.consume k c).1 = .audio data 0 true) :
    let l := ledger k ((new t s).run as).1
    (data = if f.handshake.state f.handshake.last = .empty
      then (l.echo f.bufferBytes).first n else .zeros (min n f.bufferBytes)) ∧
    (l.Allows n data ↔ ¬ (l.taken = [] ∧ f.handshake.state f.handshake.last = .empty ∧
      ∃ page, l.refused.getLast? = some page ∧ page.first n ≠ .zeros (page.first n).size)) := by
  intro l
  have hs := sound_run t s as
  have hdata := hs.underrun_eq hf hback hc hreply
  refine ⟨hdata, ?_⟩
  have hle : l.taken.length ≤ l.handed.length := (hs.lines k f hf).faithful.taken_le
  rw [hdata]
  split
  next hempty =>
    rw [Ledger.allows_echo_iff hle]
    simp [hempty]
  next hbusy =>
    refine ⟨fun _ hbad => hbusy hbad.2.1, fun _ => .inl ?_⟩
    rw [Bytes.size_zeros]

/-- A buffer that was taken is heard again. -/
theorem replay_of_taken :
    let device : Hardware.Manual := ⟨.linear, 0, true⟩
    let r := (new (Hardware.new (.manual device) .none)
        { Settings.singleBuffered with frameCount := 4 }).run
      [.command (.openStream Allocator.machine ⟨.pcm8, .mono, 8000⟩),
        .command (.enter .borrow), .finish false, .command (.write [.fill 7]),
        .command (.enter .commit), .finish false, .device 0 (.pull 4)]
    (r.2.consume 0 (.pull 3)).1 = .audio #[7, 7, 7] 0 true ∧
      (ledger 0 r.1).Allows 3 #[7, 7, 7] := by
  intro device r
  have hreply : (r.2.consume 0 (.pull 3)).1 = .audio #[7, 7, 7] 0 true := by decide +kernel
  have hback : (r.2.feed? 0).map (·.fallback) = some .replay := by decide +kernel
  have htaken : (ledger 0 r.1).taken ≠ [] := by decide +kernel
  obtain ⟨f, hf, hfallback⟩ := Option.map_eq_some_iff.mp hback
  have hexact := replay_exact (Hardware.new (.manual device) .none)
    { Settings.singleBuffered with frameCount := 4 }
    [.command (.openStream Allocator.machine ⟨.pcm8, .mono, 8000⟩),
      .command (.enter .borrow), .finish false, .command (.write [.fill 7]),
      .command (.enter .commit), .finish false, .device 0 (.pull 4)]
    0 3 f (.pull 3) #[7, 7, 7] hf hfallback rfl hreply
  exact ⟨hreply, hexact.2.mpr fun hbad => htaken hbad.1⟩

/-- A buffer whose commit was refused is heard, though no device has ever taken one. -/
theorem replay_of_refused :
    let device : Hardware.Manual := ⟨.linear, 0, true⟩
    let failures : Hardware.Failures := ⟨none, none, some .unavailable⟩
    let r := (new (Hardware.new (.manual device) failures)
        { Settings.singleBuffered with frameCount := 4 }).run
      [.command (.openStream Allocator.machine ⟨.pcm8, .mono, 8000⟩),
        .command (.enter .borrow), .finish false, .command (.write [.fill 7]),
        .command (.enter .commit), .finish false]
    (ledger 0 r.1).taken = [] ∧ (ledger 0 r.1).refused = [#[7, 7, 7, 7]] ∧
      (r.2.consume 0 (.pull 4)).1 = .audio #[7, 7, 7, 7] 0 true ∧
      ¬ (ledger 0 r.1).Allows 4 #[7, 7, 7, 7] := by
  intro device failures r
  refine ⟨by decide +kernel, by decide +kernel, by decide +kernel, ?_⟩
  have hplayed : (ledger 0 r.1).played = none := by decide +kernel
  rintro (hzero | ⟨page, hpage, -⟩)
  · exact absurd hzero (by decide)
  · rw [hplayed] at hpage
    cases hpage

end Playback

end Playout

import Playout.Proofs.Occupancy
import Playout.Proofs.Custody

/-!
# What the checks rest on

A stream counts no stall that has not happened, a word can count the bytes of every buffer, and no
pull is longer than the buffers of its feed.  All of this, and with it that the playback is sound,
holds after every run.
-/

namespace Playout

/-! ## 1. Stalls -/

/-- The stalls that an event tells of. -/
def Event.stalls : Event → Nat
  | .answered _ _ stalled _ | .launched _ stalled => stalled.toNat
  | _ => 0

/-- How many calls have stalled. -/
def stallCount : List Event → Nat
  | [] => 0
  | e :: es => e.stalls + stallCount es

theorem stallCount_append (tr es : List Event) :
    stallCount (tr ++ es) = stallCount tr + stallCount es := by
  induction tr with
  | nil => exact (Nat.zero_add _).symm
  | cons e tr ih => rw [List.cons_append, stallCount, stallCount, ih, Nat.add_assoc]

/-- The stalls that are counted before an event tells of them. -/
def Producer.stalls : Producer → Nat
  | .launching stalled => stalled.toNat
  | .free | .waiting _ => 0

namespace Stream

theorem stalls_countStall_le (st : Stream) (stalled : Bool) :
    (st.countStall stalled).stalls.toNat ≤ st.stalls.toNat + stalled.toNat := by
  cases stalled with
  | false => exact Nat.le_refl _
  | true =>
    have hadd : (st.stalls + 1).toNat = (st.stalls.toNat + 1) % 2 ^ 64 := UInt64.toNat_add _ _
    exact hadd ▸ Nat.mod_le _ _

theorem stalls_borrowed (st : Stream) (stalled : Bool) :
    (st.borrowed stalled).stalls = (st.countStall stalled).stalls := by
  cases stalled <;> rfl

theorem stalls_handedOver (st : Stream) (stalled : Bool) :
    (st.handedOver stalled).stalls = (st.countStall stalled).stalls := by
  cases stalled <;> rfl

end Stream

namespace Playback

variable {τ : Type} {tr es : List Event} {p p' : Playback τ} {st st' : Stream}

/-- A stream counts no stall that has not happened. -/
def Counted (tr : List Event) (p : Playback τ) : Prop :=
  ∀ st, p.session.stream = some st → st.stalls.toNat ≤ stallCount tr + p.producer.stalls

namespace Counted

theorem of_closed (hclosed : p.session.stream = none) : Counted tr p := by
  intro st hst
  rw [hclosed] at hst
  cases hst

theorem of_open (hst : p.session.stream = some st)
    (hle : st.stalls.toNat ≤ stallCount tr + p.producer.stalls) : Counted tr p := by
  intro st' hst'
  rw [hst] at hst'
  cases hst'
  exact hle

-- The stream has counted no more than before.
theorem of_same (hc : Counted tr p) (hproducer : p'.producer.stalls = p.producer.stalls)
    (hst : ∀ st', p'.session.stream = some st' →
      ∃ st, p.session.stream = some st ∧ st'.stalls = st.stalls) : Counted (tr ++ es) p' := by
  intro st' hst'
  obtain ⟨st, hst, hstalls⟩ := hst st' hst'
  have hle := hc st hst
  rw [hstalls, stallCount_append, hproducer]
  omega

-- A call that has counted its own stall, if it had one.
theorem of_countStall (hc : Counted tr p) (hnone : p.producer.stalls = 0)
    (hst : p.session.stream = some st) (hst' : p'.session.stream = some st') {stalled : Bool}
    (hstalls : st'.stalls = (st.countStall stalled).stalls)
    (htold : stalled.toNat ≤ stallCount es + p'.producer.stalls) : Counted (tr ++ es) p' := by
  have hle := hc st hst
  have hcount := st.stalls_countStall_le stalled
  refine of_open hst' ?_
  rw [hstalls, stallCount_append]
  omega

theorem device (hc : Counted tr p) (k : Nat) (c : ConsumerStep) :
    Counted (tr ++ [.device k c (p.consume k c).1]) (p.consume k c).2 := by
  have hend := p.consumption k c
  cases hst : p.session.stream with
  | none => exact of_closed (hend.closed hst)
  | some st =>
    obtain ⟨f, hst', -⟩ := hend.stream hst
    refine hc.of_same (by rw [hend.producer]) fun st' h => ⟨st, hst, ?_⟩
    rw [hst'] at h
    cases h
    rfl

variable [Transport τ]

theorem transition (hc : Counted tr p) (h : p.Transition es p') : Counted (tr ++ es) p' := by
  cases h with
  | idle | fault | skipped | paused | resumed | notRestarted | closed | configured =>
    exact hc.of_same rfl fun st' hst' => ⟨st', hst', rfl⟩
  | notOpened hfree hclosed mem requested e s hend =>
    cases hend <;> exact of_closed hclosed
  | opened hfree hclosed mem requested f s hend =>
    cases hend with
    | installed => exact of_open rfl (Nat.zero_le _)
  | entered hfree => exact hc.of_same (by rw [hfree]; rfl) fun st' hst' => ⟨st', hst', rfl⟩
  | committing hfree st st' hst hphase hfilling hwiden =>
    obtain ⟨b, rfl⟩ := Stream.exists_of_widenActive hwiden
    refine hc.of_same (by rw [hfree]; rfl) fun st' hst' => ⟨st, hst, ?_⟩
    cases hst'
    rfl
  | wrote hfree edits st slot hst hlent =>
    refine hc.of_same rfl fun st' hst' => ⟨st, hst, ?_⟩
    cases hst'
    rfl
  | stopped hfree st hst hphase | restarted hfree st hst hphase t hstart =>
    refine hc.of_same rfl fun st' hst' => ⟨st, hst, ?_⟩
    cases hst'
    rfl
  | closing hfree st hst => exact of_closed rfl
  | finished c hwait st hst stalled a s hend =>
    have hnone : p.producer.stalls = 0 := by rw [hwait]; rfl
    have htold : stalled.toNat ≤ stallCount [.answered st.number c stalled a] + 0 := Nat.le_refl _
    cases hend with
    | borrow => exact hc.of_countStall hnone hst rfl (st.stalls_borrowed stalled) htold
    | commit | start | refuse =>
      exact hc.of_countStall hnone hst rfl (st.stalls_handedOver stalled) htold
    | drain => exact hc.of_countStall hnone hst rfl rfl htold
  | handedOver hwait st hst hphase hblocks hfilling stalled =>
    have hnone : p.producer.stalls = 0 := by rw [hwait]; rfl
    refine hc.of_countStall hnone hst rfl (st.stalls_handedOver stalled) ?_
    exact Nat.le_add_left _ _
  | launched stalled hlaunch st hst t hstart =>
    have hle := hc st hst
    refine of_open rfl ?_
    rw [hlaunch] at hle
    rw [stallCount_append]
    exact hle

end Counted

/-- A call that has been entered can still count its stall. -/
theorem Counted.room (hc : Counted tr p) (hnone : p.producer.stalls = 0)
    (hst : p.session.stream = some st) {stalled : Bool}
    (hroom : stallCount tr + stalled.toNat < wordLimit) :
    stalled = true → st.stalls.toNat + 1 < wordLimit := by
  rintro rfl
  have hle := hc st hst
  rw [Bool.toNat_true] at hroom
  omega

/-! ## 2. Sizes -/

end Playback

theorem Feed.Keeps.bufferBytes {f f' : Feed} (h : f.Keeps f') : f'.bufferBytes = f.bufferBytes := by
  rw [Buffers.bufferBytes, h.silence, Buffers.bufferBytes]

-- Memory is asked for only where a word can count its bits.
theorem Format.lt_of_byteSize? {f : Format} {frames bytes : Nat}
    (h : f.byteSize? frames = some bytes) : bytes < wordLimit := by
  have hbits := (byteSize?_eq_some h).2
  have hword : frames * f.frameBits < wordLimit := by
    refine Nat.lt_of_not_le fun hle => ?_
    rw [byteSize?_eq_none_iff.mpr hle] at h
    cases h
  unfold wordLimit at hword ⊢
  omega

namespace Playback

variable {τ : Type} {tr es : List Event} {p p' : Playback τ}

theorem Consumption.opens {k : Nat} {c : ConsumerStep} {r : ConsumerReply × Playback τ}
    (h : p.Consumption k c r) : r.2.session.opens = p.session.opens := by
  cases h with
  | pulled | held | dropped => exact p.opens_setFeed _ _
  | nothing | peeked | faulted => rfl

/-- A word can count the bytes of every buffer. -/
def Small (p : Playback τ) : Prop := ∀ k f, p.feed? k = some f → f.bufferBytes < wordLimit

namespace Small

-- Nothing has been opened, and feeds keep their size.
theorem of_keeps (hm : Small p) (hs : Sound tr p) (hs' : Sound es p')
    (hopens : p'.session.opens = p.session.opens)
    (hkeeps : ∀ k f, p.feed? k = some f → ∃ f', p'.feed? k = some f' ∧ f.Keeps f') : Small p' := by
  intro k f' hf'
  obtain ⟨f, hf⟩ := hs.present (hopens ▸ hs'.numbers hf')
  obtain ⟨g, hg, hkeep⟩ := hkeeps k f hf
  rw [hf'] at hg
  cases hg
  rw [hkeep.bufferBytes]
  exact hm k f hf

theorem device (hm : Small p) (hs : Sound tr p) (k : Nat) (c : ConsumerStep) :
    Small (p.consume k c).2 :=
  hm.of_keeps hs (hs.device k c) (p.consumption k c).opens fun _ _ => (p.consumption k c).keeps

theorem transition [Transport τ] (hm : Small p) (hs : Sound tr p) (h : p.Transition es p') :
    Small p' := by
  have hsame : p'.session.opens = p.session.opens → Small p' := fun hopens =>
    hm.of_keeps hs (hs.transition h) hopens fun _ _ => h.keeps hs
  cases h with
  | opened hfree hclosed mem requested f s hend =>
    cases hend with
    | installed _ b handle t t' threshold _ hallocate _ _ _ =>
      intro k g hg
      simp only [feed?, Session.install] at hg
      split at hg
      next =>
        obtain ⟨bytes, hbytes, -, rfl⟩ := Session.allocateFor_eq_ok hallocate
        cases hg
        have hsize : (Feed.ofBuffers (.zeroed p.session.settings.doubleBuffered bytes) f
            p.session.settings.fallback).bufferBytes = bytes := Bytes.size_zeros bytes
        rw [hsize]
        exact Format.lt_of_byteSize? hbytes
      next => exact hm k g ((feed?_of_closed hclosed k).trans hg)
  | notOpened hfree hclosed mem requested e s hend => cases hend <;> exact hsame rfl
  | finished c hwait st hst stalled a s hend => cases hend <;> exact hsame rfl
  | _ => exact hsame rfl

end Small

/-- No live pull is longer than the buffers of its feed. -/
def Fitting (p : Playback τ) : Prop :=
  ∀ l ∈ p.live, ∀ f, p.feed? l.feed = some f → l.pull.length ≤ f.bufferBytes

namespace Fitting

-- Feeds keep their size, and so old pulls fit.
theorem of_keeps (hf : Fitting p) (hs : Sound tr p) {l : LivePull} (hl : l ∈ p.live)
    (hkeeps : ∀ k f, p.feed? k = some f → ∃ f', p'.feed? k = some f' ∧ f.Keeps f') {f' : Feed}
    (hf' : p'.feed? l.feed = some f') : l.pull.length ≤ f'.bufferBytes := by
  obtain ⟨f, hfeed⟩ := hs.homes hl
  obtain ⟨g, hg, hkeep⟩ := hkeeps l.feed f hfeed
  rw [hf'] at hg
  cases hg
  rw [hkeep.bufferBytes]
  exact hf l hl f hfeed

theorem device (hf : Fitting p) (hs : Sound tr p) (k : Nat) (c : ConsumerStep) :
    Fitting (p.consume k c).2 := by
  have hend := p.consumption k c
  have hkeeps : ∀ j f, p.feed? j = some f → ∃ f', (p.consume k c).2.feed? j = some f' ∧ f.Keeps f' :=
    fun j f => hend.keeps
  generalize p.consume k c = r at hend hkeeps
  intro l hl f' hf'
  cases hend with
  | nothing | peeked => exact hf l hl f' hf'
  | pulled n f g hfeed hdrop =>
    rw [live_setFeed] at hl
    exact hf.of_keeps hs hl hkeeps hf'
  | held n name f hname hfeed =>
    rcases List.mem_cons.mp hl with rfl | hl
    · -- the new pull
      have hnew : f' = (f.pull n).2 := by
        have hset := (p.feed?_setFeed k k (f.pull n).2).trans (if_pos rfl)
        exact Option.some.inj (hf'.symm.trans hset)
      subst hnew
      show (f.pull n).1.length ≤ _
      rw [Feed.length_pull, (f.sameBytes_pull n).bufferBytes]
      exact f.grant_le n
    · exact hf.of_keeps hs hl hkeeps hf'
  | dropped name x f g hname hfeed hdrop =>
    exact hf.of_keeps hs (LivePulls.mem_of_mem_without hl) hkeeps hf'
  | faulted name x f d hname hfeed hdrop =>
    exact hf.of_keeps hs (LivePulls.mem_of_mem_without hl) hkeeps hf'

theorem transition [Transport τ] (hf : Fitting p) (hs : Sound tr p) (h : p.Transition es p') :
    Fitting p' := by
  intro l hl f' hf'
  rw [h.live] at hl
  exact hf.of_keeps hs hl (fun k f => h.keeps hs) hf'

end Fitting

/-! ## 3. Every run -/

/-- All that the checks rest on. -/
structure Guarded (tr : List Event) (p : Playback τ) : Prop where
  sound : Sound tr p
  counted : Counted tr p
  small : Small p
  fitting : Fitting p

variable [Transport τ]

namespace Guarded

theorem step (hg : Guarded tr p) (a : Action) : Guarded (tr ++ (p.step a).1) (p.step a).2 := by
  rcases p.step_cases a with ⟨k, c, -, hstep⟩ | h
  · rw [hstep]
    exact ⟨hg.sound.device k c, hg.counted.device k c, hg.small.device hg.sound k c,
      hg.fitting.device hg.sound k c⟩
  · exact ⟨hg.sound.transition h, hg.counted.transition h, hg.small.transition hg.sound h,
      hg.fitting.transition hg.sound h⟩

theorem run (hg : Guarded tr p) (as : List Action) :
    Guarded (tr ++ (p.run as).1) (p.run as).2 := by
  induction as generalizing tr p with
  | nil => rwa [Playback.run, List.append_nil]
  | cons a rest ih =>
    have hrest := ih (hg.step a)
    rwa [List.append_assoc] at hrest

end Guarded

theorem guarded_run (t : τ) (c : Settings) (as : List Action) :
    Guarded ((new t c).run as).1 ((new t c).run as).2 := by
  have hnew : Guarded [] (new t c) := by
    refine ⟨sound_new t c, .of_closed rfl, fun k f hf => ?_, fun l hl => absurd hl List.not_mem_nil⟩
    cases hf
  exact hnew.run as

end Playback

end Playout

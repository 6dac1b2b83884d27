import Playout.Proofs.Playback
import Playout.Proofs.Opening
import Playout.Proofs.Producer

/-!
# What an action can do

`Playback.consumption` lists what a step of a device can do.  Here is the same for everything else:
each end of each action, with the conditions under which it comes about.  What all actions have in
common is proved from these lists.
-/

namespace Playout

namespace Playback

variable {τ : Type} [Transport τ]

/-- The answer of the transport to a start of this stream. -/
def startOf (p : Playback τ) (st : Stream) : Except Refusal Unit × τ :=
  Transport.start p.session.transport st.handle st.format.frameRate st.format.layout.isStereo

/-- The ends of the producer's actions: the events and the playback after them. -/
inductive Transition (p : Playback τ) : List Event → Playback τ → Prop where
  -- The action is not possible now, or the call still has to wait.
  | idle : Transition p [] p
  -- A call that is refused, or a failed check.
  | fault (f : Fault) : Transition p [.fault f] p
  -- Opening has failed.
  | notOpened (hfree : p.producer = .free) (hclosed : p.session.stream = none) (mem : Allocator)
      (requested : Format) (e : OpeningError) (s : Session τ)
      (h : p.session.Opening mem requested (.error e, s)) :
      Transition p [.notOpened e] { p with session := s }
  | opened (hfree : p.producer = .free) (hclosed : p.session.stream = none) (mem : Allocator)
      (requested f : Format) (s : Session τ) (h : p.session.Opening mem requested (.ok f, s)) :
      Transition p [.opened p.session.opens f (s.stream.any (·.widens))] { p with session := s }
  -- A call on a paused stream, which is over at once.
  | skipped (hfree : p.producer = .free) (c : Call) (st : Stream)
      (hst : p.session.stream = some st) (hphase : st.phase = .paused) :
      Transition p [.skipped c] p
  -- A call other than a commit has been entered.
  | entered (hfree : p.producer = .free) (c : Call) (st : Stream)
      (hst : p.session.stream = some st) (hphase : st.phase ≠ .paused) (hc : c ≠ .commit) :
      Transition p [] { p with producer := .waiting c }
  -- A commit has been entered, and the buffer has its final content.
  | committing (hfree : p.producer = .free) (st st' : Stream) (hst : p.session.stream = some st)
      (hphase : st.phase ≠ .paused)
      (hfilling : st.feed.handshake.state st.feed.handshake.active = .filling)
      (hwiden : st.widenActive = .ok st') :
      Transition p [] { p with session := p.session.setStream st', producer := .waiting .commit }
  | wrote (hfree : p.producer = .free) (edits : List Edit) (st : Stream) (slot : Slot)
      (hst : p.session.stream = some st) (hlent : p.lent = some slot) :
      Transition p [.wrote st.number edits]
        { p with session := p.session.setStream (st.write edits) }
  -- A paused stream stays paused.
  | paused (hfree : p.producer = .free) (st : Stream) (hst : p.session.stream = some st)
      (hphase : st.phase = .paused) : Transition p [.paused] p
  | stopped (hfree : p.producer = .free) (st : Stream) (hst : p.session.stream = some st)
      (hphase : st.phase = .playing) :
      Transition p [.paused]
        { p with
          session := { p.session with
            transport := Transport.stop p.session.transport st.handle
            stream := some { st with phase := .paused } } }
  -- A playing stream goes on playing.
  | resumed (hfree : p.producer = .free) (st : Stream) (hst : p.session.stream = some st)
      (hphase : st.phase = .playing) : Transition p [.resumed .done] p
  | restarted (hfree : p.producer = .free) (st : Stream) (hst : p.session.stream = some st)
      (hphase : st.phase = .paused) (t : τ) (hstart : p.startOf st = (.ok (), t)) :
      Transition p [.resumed .done]
        { p with
          session := { p.session with
            transport := t, stream := some { st with phase := .playing } } }
  | notRestarted (hfree : p.producer = .free) (st : Stream) (hst : p.session.stream = some st)
      (hphase : st.phase = .paused) (e : Refusal) (t : τ)
      (hstart : p.startOf st = (.error e, t)) :
      Transition p [.resumed (.refused e)] { p with session := { p.session with transport := t } }
  -- A closed session stays closed.
  | closed (hfree : p.producer = .free) (hclosed : p.session.stream = none) :
      Transition p [.closed] p
  | closing (hfree : p.producer = .free) (st : Stream) (hst : p.session.stream = some st) :
      Transition p [.closed]
        { p.keep st.number st.feed with
          session := { p.session with
            transport := Transport.destroy (Transport.stop p.session.transport st.handle) st.handle
            stream := none
            last := st.reading }
          lent := none }
  | configured (hfree : p.producer = .free) (c : Settings) :
      Transition p [] { p with session := p.session.configure c }
  -- A call has been finished.
  | finished (c : Call) (hwait : p.producer = .waiting c) (st : Stream)
      (hst : p.session.stream = some st) (stalled : Bool) (a : Answer) (s : Session τ)
      (h : p.session.Finishing st stalled c (.ok (some (a, s)))) :
      Transition p [.answered st.number c stalled a]
        { p with session := s, producer := .free, lent := p.lentAfter st c }
  -- The first hand-over, without the start.
  | handedOver (hwait : p.producer = .waiting .commit) (st : Stream)
      (hst : p.session.stream = some st) (hphase : st.phase = .opened)
      (hblocks : st.blocks .commit = false)
      (hfilling : st.feed.handshake.state st.feed.handshake.active = .filling)
      (stalled : Bool) :
      Transition p [.handedOver st.number]
        { p with
          session := p.session.setStream (st.handedOver stalled)
          producer := .launching stalled
          lent := none }
  -- The start after the first hand-over.
  | launched (stalled : Bool) (hlaunch : p.producer = .launching stalled) (st : Stream)
      (hst : p.session.stream = some st) (t : τ) (hstart : p.startOf st = (.ok (), t)) :
      Transition p [.launched st.number stalled]
        { p with
          session := { p.session with
            transport := t, stream := some { st with phase := .playing } }
          producer := .free }

variable {p : Playback τ}

/-! ## 1. Calls of a free producer -/

theorem transition_openStream (hfree : p.producer = .free) (mem : Allocator) (requested : Format) :
    p.Transition (p.openStream mem requested).1 (p.openStream mem requested).2 := by
  unfold openStream
  cases hst : p.session.stream with
  | some st =>
    rw [Session.openStream_of_open hst]
    exact .fault _
  | none =>
    obtain ⟨⟨r, s⟩, hr, hend⟩ := Session.openStream_of_closed hst mem requested
    rw [hr]
    cases r with
    | error e => exact .notOpened hfree hst mem requested e s hend
    | ok f => exact .opened hfree hst mem requested f s hend

theorem transition_enter (hfree : p.producer = .free) (c : Call) :
    p.Transition (p.enter c).1 (p.enter c).2 := by
  unfold enter
  have hend := p.session.entering c
  generalize p.session.enter c = r at hend
  cases hend with
  | forbidden v => exact .fault _
  | defective st d hst hfilling hwiden => exact .fault _
  | skipped st hst hphase => exact .skipped hfree c st hst hphase
  | pending st hst hphase hc => exact .entered hfree c st hst hphase hc
  | committing st st' hst hphase hc hfilling hwiden =>
    subst hc
    exact .committing hfree st st' hst hphase hfilling hwiden

theorem transition_write (hfree : p.producer = .free) (edits : List Edit) :
    p.Transition (p.write edits).1 (p.write edits).2 := by
  unfold write
  split
  next st slot hst hlent =>
    have hwrite : p.session.write edits = p.session.setStream (st.write edits) := by
      simp [Session.write, hst]
    rw [hwrite]
    exact .wrote hfree edits st slot hst hlent
  next => exact .idle

theorem transition_pause (hfree : p.producer = .free) : p.Transition p.pause.1 p.pause.2 := by
  unfold pause Session.pause
  cases hst : p.session.stream with
  | none => exact .fault _
  | some st =>
    cases hphase : st.phase with
    | opened =>
      simp only [hphase]
      exact .fault _
    | paused =>
      simp only [hphase]
      exact .paused hfree st hst hphase
    | playing =>
      simp only [hphase]
      exact .stopped hfree st hst hphase

theorem transition_resume (hfree : p.producer = .free) : p.Transition p.resume.1 p.resume.2 := by
  unfold resume Session.resume
  cases hst : p.session.stream with
  | none => exact .fault _
  | some st =>
    cases hphase : st.phase with
    | opened =>
      simp only [hphase]
      exact .fault _
    | playing =>
      simp only [hphase]
      exact .resumed hfree st hst hphase
    | paused =>
      simp only [hphase]
      rcases hstart : Transport.start p.session.transport st.handle st.format.frameRate
        st.format.layout.isStereo with ⟨e | u, t⟩
      · have hend := Transition.notRestarted hfree st hst hphase e t hstart
        simp only [hst] at hend
        exact hend
      · exact .restarted hfree st hst hphase t hstart

theorem transition_close (hfree : p.producer = .free) : p.Transition p.close.1 p.close.2 := by
  unfold close
  cases hst : p.session.stream with
  | none =>
    have hsame : p.session.close = p.session := by simp [Session.close, hst]
    simp only [hsame]
    exact .closed hfree hst
  | some st =>
    have hend := Transition.closing hfree st hst
    simpa [Session.close, hst] using hend

theorem transition_command (hfree : p.producer = .free) (c : Command) :
    p.Transition (p.command c).1 (p.command c).2 := by
  cases c with
  | openStream mem requested => exact transition_openStream hfree mem requested
  | enter c => exact transition_enter hfree c
  | write edits => exact transition_write hfree edits
  | pause => exact transition_pause hfree
  | resume => exact transition_resume hfree
  | close => exact transition_close hfree
  | configure settings => exact .configured hfree settings

/-! ## 2. Finishing -/

theorem transition_finish (p : Playback τ) (stalled : Bool) :
    p.Transition (p.finish stalled).1 (p.finish stalled).2 := by
  unfold finish
  split
  next c st hwait hst =>
    have hend := Session.finishing hst c stalled
    split
    next f hf => exact .fault f
    next => exact .idle
    next a s hs => exact .finished c hwait st hst stalled a s (hs ▸ hend)
  next => exact .idle

theorem transition_handOver (p : Playback τ) (stalled : Bool) :
    p.Transition (p.handOver stalled).1 (p.handOver stalled).2 := by
  unfold handOver
  split
  next st hwait hst =>
    split
    next slot feed hphase hblocks hhand =>
      obtain ⟨-, hfilling, rfl⟩ := Feed.handOver_eq_ok hhand
      exact .handedOver hwait st hst hphase hblocks hfilling stalled
    next => exact .idle
  next => exact .idle

theorem transition_launch (p : Playback τ) : p.Transition p.launch.1 p.launch.2 := by
  unfold launch
  split
  next stalled st hlaunch hst =>
    unfold Session.startFirst
    rcases hstart : Transport.start p.session.transport st.handle st.format.frameRate
      st.format.layout.isStereo with ⟨e | u, t⟩
    · exact .idle
    · exact .launched stalled hlaunch st hst t hstart
  next => exact .idle

/-- An action is a step of a device or has one of the ends above. -/
theorem step_cases (p : Playback τ) (a : Action) :
    (∃ k c, a = .device k c ∧
      p.step a = ([.device k c (p.consume k c).1], (p.consume k c).2)) ∨
    p.Transition (p.step a).1 (p.step a).2 := by
  cases a with
  | device k c => exact .inl ⟨k, c, rfl, rfl⟩
  | command c =>
    refine .inr ?_
    unfold step
    cases hfree : p.producer with
    | free => exact transition_command hfree c
    | waiting c' => exact .idle
    | launching stalled => exact .idle
  | finish stalled => exact .inr (p.transition_finish stalled)
  | handOver stalled => exact .inr (p.transition_handOver stalled)
  | launch => exact .inr p.transition_launch

end Playback

end Playout

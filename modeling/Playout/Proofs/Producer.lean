import Playout.Session.Playing
import Playout.Proofs.Feed

/-!
# How the producer's calls end

For each call that may have to wait, all the ways in which entering and finishing it can end, with
the conditions under which they do.
-/

namespace Playout

/-! ## 1. Streams -/

namespace Stream

variable {st : Stream}

@[simp] theorem number_countStall (st : Stream) (stalled : Bool) :
    (st.countStall stalled).number = st.number := by
  cases stalled <;> rfl

@[simp] theorem handle_countStall (st : Stream) (stalled : Bool) :
    (st.countStall stalled).handle = st.handle := by
  cases stalled <;> rfl

@[simp] theorem feed_countStall (st : Stream) (stalled : Bool) :
    (st.countStall stalled).feed = st.feed := by
  cases stalled <;> rfl

@[simp] theorem widens_countStall (st : Stream) (stalled : Bool) :
    (st.countStall stalled).widens = st.widens := by
  cases stalled <;> rfl

@[simp] theorem phase_countStall (st : Stream) (stalled : Bool) :
    (st.countStall stalled).phase = st.phase := by
  cases stalled <;> rfl

/-- The stream after its active slot became the producer's. -/
def borrowed (st : Stream) (stalled : Bool) : Stream :=
  { st with
    feed := st.feed.setHandshake
      (st.feed.handshake.setState st.feed.handshake.active .filling) }.countStall stalled

/-- The stream after its active slot was handed over. -/
def handedOver (st : Stream) (stalled : Bool) : Stream :=
  { st with feed := st.feed.setHandshake st.feed.handshake.handed }.countStall stalled

@[simp] theorem number_borrowed (st : Stream) (stalled : Bool) :
    (st.borrowed stalled).number = st.number :=
  number_countStall _ _

@[simp] theorem feed_borrowed (st : Stream) (stalled : Bool) :
    (st.borrowed stalled).feed = st.feed.setHandshake
      (st.feed.handshake.setState st.feed.handshake.active .filling) :=
  feed_countStall _ _

@[simp] theorem widens_borrowed (st : Stream) (stalled : Bool) :
    (st.borrowed stalled).widens = st.widens :=
  widens_countStall _ _

@[simp] theorem phase_borrowed (st : Stream) (stalled : Bool) :
    (st.borrowed stalled).phase = st.phase :=
  phase_countStall _ _

@[simp] theorem number_handedOver (st : Stream) (stalled : Bool) :
    (st.handedOver stalled).number = st.number :=
  number_countStall _ _

@[simp] theorem handle_handedOver (st : Stream) (stalled : Bool) :
    (st.handedOver stalled).handle = st.handle :=
  handle_countStall _ _

@[simp] theorem feed_handedOver (st : Stream) (stalled : Bool) :
    (st.handedOver stalled).feed = st.feed.setHandshake st.feed.handshake.handed :=
  feed_countStall _ _

@[simp] theorem widens_handedOver (st : Stream) (stalled : Bool) :
    (st.handedOver stalled).widens = st.widens :=
  widens_countStall _ _

@[simp] theorem phase_handedOver (st : Stream) (stalled : Bool) :
    (st.handedOver stalled).phase = st.phase :=
  phase_countStall _ _

theorem producerBytes_le (st : Stream) : st.producerBytes ≤ st.feed.bufferBytes := by
  unfold producerBytes
  split <;> omega

/-- What a commit hands over of the buffer that is being filled. -/
def outgoing (st : Stream) : Bytes :=
  let b := st.feed.content st.feed.handshake.active
  if st.widens then (b.first (b.size / 2)).duplicate (st.format.encoding.bits / 8) else b

-- What `commit` does to the active slot before it waits.
theorem widenActive_eq (frames : Nat)
    (h : st.widens = true → st.feed.format.encoding.isLinear = true ∧
      (st.feed.content st.feed.handshake.active).size =
        frames * (2 * (st.feed.format.encoding.bits / 8))) :
    st.widenActive =
      .ok { st with feed := st.feed.setContent st.feed.handshake.active st.outgoing } := by
  unfold widenActive
  split
  next hw =>
    obtain ⟨hlinear, hsize⟩ := h hw
    have hpos : 0 < st.feed.format.encoding.bits / 8 := by
      have hbits := Encoding.bits_eq_of_isLinear hlinear
      have hpos := st.feed.format.encoding.bits_pos
      omega
    rw [outgoing, if_pos hw, format, Bytes.widen_eq_duplicate hlinear hpos hsize]
  next hw =>
    have hsame : st.feed.setContent st.feed.handshake.active
        (st.feed.content st.feed.handshake.active) = st.feed := by
      rw [Feed.setContent, Feed.content, PerSlot.set_get]
    rw [outgoing, if_neg hw, hsame]

-- Before the wait a commit changes the content of the active slot and nothing else.
theorem exists_of_widenActive {st' : Stream} (e : st.widenActive = .ok st') :
    ∃ b, st' = { st with feed := st.feed.setContent st.feed.handshake.active b } := by
  unfold widenActive at e
  split at e
  · split at e
    next b _ =>
      cases e
      exact ⟨b, rfl⟩
    next => cases e
  · cases e
    refine ⟨st.feed.content st.feed.handshake.active, ?_⟩
    rw [Feed.setContent, Feed.content, PerSlot.set_get]

end Stream

namespace Session

variable {τ : Type} [Transport τ]

/-! ## 2. Entering -/

/-- The ends of entering a call. -/
inductive Entering (s : Session τ) (c : Call) : Except Fault (Entered (Session τ)) → Prop where
  -- The contract forbids the call.
  | forbidden (v : Violation) : Entering s c (.error (.contract v))
  -- On a paused stream nothing happens.
  | skipped (st : Stream) (hst : s.stream = some st) (hphase : st.phase = .paused) :
      Entering s c (.ok (.returned s))
  -- The call has to be finished, and nothing has happened yet.
  | pending (st : Stream) (hst : s.stream = some st) (hphase : st.phase ≠ .paused)
      (hc : c ≠ .commit) : Entering s c (.ok (.pending s))
  -- A commit has given the buffer its final content.
  | committing (st st' : Stream) (hst : s.stream = some st) (hphase : st.phase ≠ .paused)
      (hc : c = .commit)
      (hfilling : st.feed.handshake.state st.feed.handshake.active = .filling)
      (hwiden : st.widenActive = .ok st') : Entering s c (.ok (.pending (s.setStream st')))
  -- The buffer could not be duplicated.
  | defective (st : Stream) (d : Defect) (hst : s.stream = some st)
      (hfilling : st.feed.handshake.state st.feed.handshake.active = .filling)
      (hwiden : st.widenActive = .error d) : Entering s c (.error (.defect d))

omit [Transport τ] in
theorem entering_commit {s : Session τ} {st : Stream} (hst : s.stream = some st)
    (hphase : st.phase ≠ .paused) : s.Entering .commit (s.enterCommit st) := by
  unfold enterCommit
  by_cases hfilling : st.feed.handshake.state st.feed.handshake.active = .filling
  · simp only [hfilling, ne_eq, not_true_eq_false, if_false]
    split
    next st' hwiden => exact .committing st st' hst hphase rfl hfilling hwiden
    next d hwiden => exact .defective st d hst hfilling hwiden
  · simp only [hfilling, ne_eq, not_false_eq_true, if_true]
    exact .forbidden _

omit [Transport τ] in
theorem entering (s : Session τ) (c : Call) : s.Entering c (s.enter c) := by
  cases hst : s.stream with
  | none => cases c <;> simp only [enter, state, hst] <;> exact .forbidden _
  | some st =>
    cases c with
    | borrow =>
      cases hphase : st.phase with
      | opened => simpa [enter, state, hst, hphase, Phase.state] using
          Entering.pending (c := .borrow) st hst (by simp [hphase]) (by simp)
      | playing => simpa [enter, state, hst, hphase, Phase.state] using
          Entering.pending (c := .borrow) st hst (by simp [hphase]) (by simp)
      | paused =>
        simp only [enter, state, hst, hphase, Phase.state]
        exact .forbidden _
    | commit =>
      cases hphase : st.phase with
      | opened => simpa [enter, hst, hphase] using entering_commit hst (by simp [hphase])
      | playing => simpa [enter, hst, hphase] using entering_commit hst (by simp [hphase])
      | paused => simpa [enter, hst, hphase] using Entering.skipped (c := .commit) st hst hphase
    | drain =>
      cases hphase : st.phase with
      | opened => simpa [enter, state, hst, hphase, Phase.state] using
          Entering.pending (c := .drain) st hst (by simp [hphase]) (by simp)
      | playing => simpa [enter, state, hst, hphase, Phase.state] using
          Entering.pending (c := .drain) st hst (by simp [hphase]) (by simp)
      | paused => simpa [enter, state, hst, hphase, Phase.state] using
          Entering.skipped (c := .drain) st hst hphase

/-! ## 3. Finishing -/

/-- The ends of finishing a call on stream `st`. -/
inductive Finishing (s : Session τ) (st : Stream) (stalled : Bool) :
    Call → Except Fault (Option (Answer × Session τ)) → Prop where
  -- The call still has to wait.
  | blocked (c : Call) (hblocks : st.blocks c = true) : Finishing s st stalled c (.ok none)
  | borrow (hfillable : st.feed.handshake.state st.feed.handshake.active = .empty ∨
        st.feed.handshake.state st.feed.handshake.active = .filling)
      (hsize : st.producerBytes ≤ (st.feed.content st.feed.handshake.active).size) :
      Finishing s st stalled .borrow
        (.ok (some (.buffer ((st.feed.content st.feed.handshake.active).first st.producerBytes),
          s.setStream (st.borrowed stalled))))
  -- A later commit.
  | commit (hblocks : st.blocks .commit = false)
      (hfilling : st.feed.handshake.state st.feed.handshake.active = .filling)
      (hphase : st.phase ≠ .opened) :
      Finishing s st stalled .commit (.ok (some (.done, s.setStream (st.handedOver stalled))))
  -- The first commit, and the transport starts.
  | start (hblocks : st.blocks .commit = false)
      (hfilling : st.feed.handshake.state st.feed.handshake.active = .filling)
      (hphase : st.phase = .opened) (t : τ)
      (hstart : Transport.start s.transport st.handle st.format.frameRate
        st.format.layout.isStereo = (.ok (), t)) :
      Finishing s st stalled .commit (.ok (some (.done,
        { s with transport := t }.setStream { st.handedOver stalled with phase := .playing })))
  -- The first commit, and the transport does not start.
  | refuse (hblocks : st.blocks .commit = false)
      (hfilling : st.feed.handshake.state st.feed.handshake.active = .filling)
      (hphase : st.phase = .opened) (e : Refusal) (t : τ)
      (hstart : Transport.start s.transport st.handle st.format.frameRate
        st.format.layout.isStereo = (.error e, t)) :
      Finishing s st stalled .commit (.ok (some (.refused e,
        { s with transport := t }.setStream
          { st.handedOver stalled with
            feed := st.feed.setHandshake st.feed.handshake.cleared })))
  | drain (hblocks : st.blocks .drain = false) :
      Finishing s st stalled .drain (.ok (some (.done, s.setStream (st.countStall stalled))))
  -- The buffer is too small.
  | tooSmall (hsize : (st.feed.content st.feed.handshake.active).size < st.producerBytes) :
      Finishing s st stalled .borrow (.error (.defect .sliceBounds))
  -- The buffer is not the producer's.
  | notFilling (hfilling : st.feed.handshake.state st.feed.handshake.active ≠ .filling) :
      Finishing s st stalled .commit (.error (.defect .handOver))

-- The first commit ends as the start does.
theorem first_commit {s : Session τ} {st : Stream} {stalled : Bool}
    (hblocks : st.blocks .commit = false)
    (hfilling : st.feed.handshake.state st.feed.handshake.active = .filling)
    (hphase : st.phase = .opened) :
    s.Finishing st stalled .commit (.ok (some (s.startFirst (st.handedOver stalled)))) := by
  have hformat : (st.handedOver stalled).format = st.format := by
    rw [Stream.format, Stream.feed_handedOver, Feed.format_setHandshake, Stream.format]
  have hcall : Transport.start s.transport (st.handedOver stalled).handle
      (st.handedOver stalled).format.frameRate (st.handedOver stalled).format.layout.isStereo =
        Transport.start s.transport st.handle st.format.frameRate st.format.layout.isStereo := by
    rw [Stream.handle_handedOver, hformat]
  have hcleared : (st.handedOver stalled).feed.setHandshake
      (st.handedOver stalled).feed.handshake.cleared =
        st.feed.setHandshake st.feed.handshake.cleared := by
    rw [Stream.feed_handedOver, Feed.handshake_setHandshake, Handshake.cleared,
      Handshake.double_handed, Handshake.cleared]
    rfl
  unfold startFirst
  rw [hcall, hcleared]
  rcases hstart : Transport.start s.transport st.handle st.format.frameRate
    st.format.layout.isStereo with ⟨e | u, t⟩
  · exact .refuse hblocks hfilling hphase e t hstart
  · exact .start hblocks hfilling hphase t hstart

theorem finishing {s : Session τ} {st : Stream} (hst : s.stream = some st) (c : Call)
    (stalled : Bool) : s.Finishing st stalled c (s.finish c stalled) := by
  unfold finish
  simp only [hst]
  cases c with
  | borrow =>
    simp only
    unfold finishBorrow
    split
    next x hfull =>
      refine .blocked .borrow ?_
      have hno : ¬ ∃ r, st.feed.handshake.startFilling = .ok r := by
        rintro ⟨r, hr⟩
        simp [Feed.startFilling, hr] at hfull
      rw [Handshake.startFilling_isOk_iff] at hno
      simpa [Stream.blocks] using hno
    next slot feed hstart =>
      obtain ⟨rfl, hfillable, rfl⟩ := Feed.startFilling_eq_ok hstart
      -- the check looks at the stream after the hand-shake, but sizes do not move with it
      have hbytes : (st.borrowed stalled).producerBytes = st.producerBytes := by
        simp [Stream.producerBytes]
      simp only
      split
      next hsize =>
        refine .tooSmall ?_
        rw [← hbytes]
        exact hsize
      next hsize =>
        have hle : st.producerBytes ≤ (st.feed.content st.feed.handshake.active).size := by
          rw [← hbytes]
          exact Nat.le_of_not_lt hsize
        have hend : s.Finishing st stalled .borrow _ := .borrow hfillable hle
        rw [← hbytes] at hend
        exact hend
  | commit =>
    simp only
    unfold finishCommit
    cases hblocks : st.blocks .commit with
    | true => exact .blocked .commit hblocks
    | false =>
      simp only [Bool.false_eq_true, if_false]
      split
      next x hnot =>
        refine .notFilling fun hfilling => ?_
        rw [Feed.handOver_of_filling hfilling] at hnot
        cases hnot
      next slot feed hhand =>
        obtain ⟨rfl, hfilling, rfl⟩ := Feed.handOver_eq_ok hhand
        have hsame : (st.handedOver stalled).phase = st.phase := by simp
        split
        next hphase =>
          exact first_commit hblocks hfilling (hsame.symm.trans hphase)
        next hphase =>
          refine .commit hblocks hfilling fun hopened => ?_
          replace hphase := hsame.symm.trans hphase
          rw [hopened] at hphase
          cases hphase
        next hphase =>
          refine .commit hblocks hfilling fun hopened => ?_
          replace hphase := hsame.symm.trans hphase
          rw [hopened] at hphase
          cases hphase
  | drain =>
    simp only
    unfold finishDrain
    cases hblocks : st.blocks .drain with
    | true => exact .blocked .drain hblocks
    | false => exact .drain hblocks

end Session

end Playout

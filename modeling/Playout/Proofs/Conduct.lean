import Playout.Proofs.Transition

/-!
# Calls step by step

Every call of a session in the order in which a program carries it out: what is checked, what is
changed, and what the transport is told in between.  A check that fails breaks the call off where it
stands, and what has been changed by then stays changed.

Nothing is taken for granted here.  The state of the session is a variable of its own, which the
calls set and read and which could contradict the stream, and every access to a buffer and every sum
of words is checked.  From a session on, each call then does what its function in `Session` says.
-/

namespace Playout

/-! ## 1. Programs that can break off -/

/-- Why a call breaks off. -/
inductive Panic where
  -- A check of the caller or of the library on itself.
  | fault (f : Fault)
  -- There is no stream, though the state says that there is one.
  | noStream (op : Operation)
  -- A count runs over, or something is divided by zero.
  | arithmetic
deriving DecidableEq, Repr

/-- A session as its calls find it. -/
@[ext] structure Desk (τ : Type) where
  session : Session τ
  -- The state that the calls have set.
  state : SessionState

/-- The session with its own state. -/
def Session.desk {τ : Type} (s : Session τ) : Desk τ := ⟨s, s.state⟩

/-- A part of a call. -/
abbrev Conduct (τ α : Type) := EStateM Panic (Desk τ) α

/-- The local variables of a call that waits. -/
structure Frame where
  call : Call
  -- The state of the session, and its active slot, when the call was entered.
  state : SessionState
  slot : Slot
deriving DecidableEq, Repr

namespace Conduct

variable {τ : Type}

def check (holds : Bool) (e : Panic) : Conduct τ Unit := if holds then pure () else throw e

/-- What the caller has to keep to. -/
def contract (holds : Bool) (v : Violation) : Conduct τ Unit := check holds (.fault (.contract v))

/-- What the library relies on. -/
def assert (holds : Bool) (d : Defect) : Conduct τ Unit := check holds (.fault (.defect d))

/-- The stream, for a call that needs one. -/
def stream (op : Operation) : Conduct τ Stream := do
  match (← get).session.stream with
  | some st => pure st
  | none => throw (.noStream op)

def setStream (st : Stream) : Conduct τ Unit :=
  modify fun d => { d with session := d.session.setStream st }

/-- The stream and the session enter another phase. -/
def turnTo (st : Stream) (phase : Phase) : Conduct τ Unit :=
  modify fun d => ⟨d.session.setStream { st with phase }, phase.state⟩

/-- Asks something of the transport. -/
def ask {α : Type} (f : τ → α × τ) : Conduct τ α :=
  modifyGet fun d =>
    ((f d.session.transport).1,
      { d with session := { d.session with transport := (f d.session.transport).2 } })

/-- Tells the transport something. -/
def tell (f : τ → τ) : Conduct τ Unit :=
  modify fun d => { d with session := { d.session with transport := f d.session.transport } }

/-- A call without its answer. -/
def forget {α : Type} (x : Conduct τ α) : Conduct τ Unit := do
  let _ ← x
  return ()

section

variable {α : Type} (d : Desk τ)

@[simp] theorem run_check (holds : Bool) (e : Panic) :
    (check holds e).run d = if holds then .ok () d else .error e d := by
  cases holds <;> rfl

@[simp] theorem run_contract (holds : Bool) (v : Violation) :
    (contract holds v).run d = if holds then .ok () d else .error (.fault (.contract v)) d :=
  run_check d holds _

@[simp] theorem run_assert (holds : Bool) (e : Defect) :
    (assert holds e).run d = if holds then .ok () d else .error (.fault (.defect e)) d :=
  run_check d holds _

theorem run_stream {st : Stream} (hst : d.session.stream = some st) (op : Operation) :
    (stream op).run d = .ok st d := by
  simp [stream, hst]

@[simp] theorem run_setStream (st : Stream) :
    (setStream st).run d = .ok () { d with session := d.session.setStream st } := rfl

@[simp] theorem run_turnTo (st : Stream) (phase : Phase) :
    (turnTo st phase).run d = .ok () ⟨d.session.setStream { st with phase }, phase.state⟩ := rfl

@[simp] theorem run_ask (f : τ → α × τ) :
    (ask f).run d = .ok (f d.session.transport).1
      { d with session := { d.session with transport := (f d.session.transport).2 } } := rfl

@[simp] theorem run_tell (f : τ → τ) :
    (tell f).run d = .ok ()
      { d with session := { d.session with transport := f d.session.transport } } := rfl

theorem run_forget (x : Conduct τ α) :
    (forget x).run d = match x.run d with
      | .ok _ d' => .ok () d'
      | .error e d' => .error e d' := by
  cases h : x.run d <;> simp [-bind_pure_comp, forget, h]

end

/-- Counts a stall. -/
def countStall (op : Operation) (stalled : Bool) : Conduct τ Unit := do
  if stalled then
    let st ← stream op
    check (decide (st.stalls.toNat + 1 < wordLimit)) .arithmetic
    setStream { st with stalls := st.stalls + 1 }

/-- The content of a slot, which has to take part. -/
def buffer (st : Stream) (slot : Slot) : Conduct τ Bytes := do
  assert (decide (slot ∈ st.feed.handshake.members)) .sliceBounds
  return st.feed.content slot

theorem run_buffer (d : Desk τ) {st : Stream} {slot : Slot}
    (hmem : slot ∈ st.feed.handshake.members) :
    (buffer st slot).run d = .ok (st.feed.content slot) d := by
  simp [-bind_pure_comp, buffer, hmem]

/-! ## 2. Duplicating mono -/

def copyWithin (b : Bytes) (src width dst : Nat) : Conduct τ Bytes := do
  assert (decide (src + width ≤ b.size ∧ dst + width ≤ b.size)) .sliceBounds
  return b.copyWithin src width dst

def spread (width : Nat) : Nat → Bytes → Conduct τ Bytes
  | 0, b => pure b
  | i + 1, b => do
    -- the largest of the offsets
    check (decide (2 * i * width + width < wordLimit)) .arithmetic
    let left ← copyWithin b (i * width) width (2 * i * width)
    let both ← copyWithin left (2 * i * width) width (2 * i * width + width)
    spread width i both

def widen (e : Encoding) (b : Bytes) : Conduct τ Bytes := do
  assert e.isLinear .notLinear
  assert (decide (b.size % 2 = 0)) .oddLength
  let width := e.bits / 8
  check (decide (2 * width ≠ 0)) .arithmetic
  spread width (b.size / (2 * width)) b

theorem run_spread (d : Desk τ) (width samples : Nat) (b : Bytes)
    (hfit : 2 * (samples * width) ≤ b.size) (hsmall : b.size < wordLimit) :
    (spread width samples b).run d = .ok (b.spread width samples) d := by
  induction samples generalizing b with
  | zero => rfl
  | succ i ih =>
    have hnext : (i + 1) * width = i * width + width := Nat.succ_mul i width
    have htwice : 2 * i * width = 2 * (i * width) := Nat.mul_assoc 2 i width
    rw [hnext] at hfit
    -- both copies of the last sample end where the part that is left over begins
    have hsource : i * width + width ≤ b.size := by omega
    have hleft : 2 * i * width + width ≤ b.size := by omega
    have hright : 2 * i * width + width + width ≤ b.size := by omega
    have hword : 2 * i * width + width < wordLimit := by omega
    have hrest := ih ((b.copyWithin (i * width) width (2 * i * width)).copyWithin (2 * i * width)
      width (2 * i * width + width)) (by simp only [Bytes.size_copyWithin]; omega)
      (by simpa only [Bytes.size_copyWithin] using hsmall)
    simp [spread, copyWithin, hsource, hleft, hright, hword, hrest, Bytes.spread]

-- The checks of the loop hold wherever the first two do.
theorem run_widen (d : Desk τ) (e : Encoding) {b : Bytes} (hsmall : b.size < wordLimit) :
    (widen e b).run d = match b.widen e with
      | .ok bytes => .ok bytes d
      | .error f => .error (.fault (.defect f)) d := by
  unfold widen Bytes.widen
  cases hlinear : e.isLinear with
  | false => simp
  | true =>
    by_cases heven : b.size % 2 = 0
    · have hwidth : e.bits / 8 ≠ 0 := by
        have hbits := Encoding.bits_eq_of_isLinear hlinear
        have hpos := e.bits_pos
        omega
      have hfit : 2 * (b.size / (2 * (e.bits / 8)) * (e.bits / 8)) ≤ b.size := by
        have hdiv := Nat.div_mul_le_self b.size (2 * (e.bits / 8))
        rwa [Nat.mul_left_comm] at hdiv
      generalize e.bits / 8 = width at hwidth hfit ⊢
      have htwice : 2 * width ≠ 0 := by omega
      simp [heven, htwice, run_spread d _ _ b hfit hsmall]
    · simp [heven]

/-! ## 3. Opening and closing -/

section

variable [Transport τ]

def threshold (c : Settings) (f : Format) : Conduct τ Duration :=
  match c.threshold? f with
  | some d => pure d
  | none => throw (.fault (.defect .durationOverflow))

def openStream (mem : Allocator) (requested : Format) :
    Conduct τ (Except OpeningError Format) := do
  let d ← get
  contract (decide (d.state = .closed)) (.wrongState .openStream d.state)
  let s := d.session
  let wanted := s.settings.override requested
  match wanted.negotiate (Transport.capabilities s.transport) with
  | .error u => return .error (.noCommonFormat u)
  | .ok format =>
    match s.allocateFor mem format with
    | .error e => return .error (.allocation e)
    | .ok buffers =>
      match ← ask (Transport.create · buffers.bufferBytes) with
      | .error e => return .error (.ofRefusal e)
      | .ok handle =>
        match ← ask (Transport.register · handle ⟨s.opens, format⟩) with
        | .error e =>
          tell (Transport.destroy · handle)
          return .error (.ofRefusal e)
        | .ok () =>
          tell (Transport.setGain · handle s.settings.gain)
          let stallThreshold ← threshold s.settings format
          let feed := Feed.ofBuffers buffers format s.settings.fallback
          let widens := Session.duplicates wanted format
          let st : Stream := ⟨s.opens, handle, feed, widens, stallThreshold, 0, .opened⟩
          modify fun d => { d with session := { d.session with opens := s.opens + 1 } }
          turnTo st .opened
          return .ok format

def close : Conduct τ Unit := do
  match (← get).session.stream with
  | none => return ()
  | some st =>
    modify fun d => { d with session := { d.session with stream := none } }
    tell (Transport.stop · st.handle)
    tell (Transport.destroy · st.handle)
    modify fun d => ⟨{ d.session with last := st.reading }, .closed⟩

/-! ## 4. Producing -/

/-- What comes before the wait, if there is one. -/
def enter : Call → Conduct τ (Option Frame)
  | .borrow => do
    let x := (← get).state
    contract (decide (x = .opened ∨ x = .playing)) (.wrongState .borrow x)
    let st ← stream .borrow
    return some ⟨.borrow, x, st.feed.handshake.active⟩
  | .commit => do
    let x := (← get).state
    contract (decide (x ≠ .closed)) (.wrongState .commit x)
    if x = .paused then return none
    let st ← stream .commit
    let slot := st.feed.handshake.active
    contract (decide (st.feed.handshake.state slot = .filling))
      (.notFilled slot (st.feed.handshake.state slot))
    if st.widens then
      let bytes ← widen st.format.encoding (← buffer st slot)
      setStream { st with feed := st.feed.setContent slot bytes }
    return some ⟨.commit, x, slot⟩
  | .drain => do
    let x := (← get).state
    contract (decide (x ≠ .closed)) (.wrongState .drain x)
    if x = .paused then return none
    let st ← stream .drain
    return some ⟨.drain, x, st.feed.handshake.active⟩

/-- Hands the active slot over, which has to be the one that the call was entered with. -/
def handOver (slot : Slot) (stalled : Bool) : Conduct τ Unit := do
  countStall .commit stalled
  let st ← stream .commit
  match st.feed.handOver with
  | .error _ => throw (.fault (.defect .handOver))
  | .ok (s, feed) =>
    setStream { st with feed }
    assert (decide (s = slot)) .handOver

/-- Starts the transport after the first hand-over. -/
def launch : Conduct τ Answer := do
  let st ← stream .commit
  match ← ask (Transport.start · st.handle st.format.frameRate st.format.layout.isStereo) with
  | .error e =>
    setStream { st with feed := st.feed.setHandshake st.feed.handshake.cleared }
    return .refused e
  | .ok () =>
    turnTo st .playing
    return .done

/-- Where the wait is over, what comes after it. -/
def finish (f : Frame) (stalled : Bool) : Conduct τ (Option Answer) :=
  match f.call with
  | .borrow => do
    let st ← stream .borrow
    match st.feed.startFilling with
    | .error _ => return none
    | .ok (slot, feed) =>
      setStream { st with feed }
      countStall .borrow stalled
      let st ← stream .borrow
      let bytes ← buffer st slot
      assert (decide (st.producerBytes ≤ bytes.size)) .sliceBounds
      return some (.buffer (bytes.first st.producerBytes))
  | .commit => do
    let st ← stream .commit
    if st.blocks .commit then return none
    handOver f.slot stalled
    if f.state = .opened then
      let a ← launch
      return some a
    return some .done
  | .drain => do
    let st ← stream .drain
    if st.blocks .drain then return none
    countStall .drain stalled
    return some .done

/-- Writes into the buffer that was handed out, if there is one. -/
def write (lent : Option Slot) (edits : List Edit) : Conduct τ Unit := do
  match (← get).session.stream, lent with
  | some st, some _ => setStream (st.write edits)
  | _, _ => return ()

def pause : Conduct τ Unit := do
  let x := (← get).state
  contract (decide (x = .playing ∨ x = .paused)) (.wrongState .pause x)
  if x = .paused then return ()
  let st ← stream .pause
  tell (Transport.stop · st.handle)
  turnTo st .paused

def resume : Conduct τ Answer := do
  let x := (← get).state
  contract (decide (x = .playing ∨ x = .paused)) (.wrongState .resume x)
  if x = .playing then return .done
  let st ← stream .resume
  match ← ask (Transport.start · st.handle st.format.frameRate st.format.layout.isStereo) with
  | .error e => return .refused e
  | .ok () =>
    turnTo st .playing
    return .done

def configure (settings : Settings) : Conduct τ Unit :=
  modify fun d => { d with session := d.session.configure settings }

def reading : Conduct τ Reading := do
  match (← get).session.stream with
  | some st => return st.reading
  | none => return (← get).session.last

/-- What somebody calls.  Letting go of a session closes it. -/
def perform (lent : Option Slot) : Command → Conduct τ Unit
  | .openStream mem requested => forget (openStream mem requested)
  | .enter c => forget (enter c)
  | .write edits => write lent edits
  | .pause => pause
  | .resume => forget resume
  | .close => close
  | .configure settings => configure settings

/-! ## 5. From a session on -/

variable {s s' : Session τ} {st : Stream}

/-- The buffer that is filled is there, and a word can count its bytes. -/
structure Solid (st : Stream) : Prop where
  active_mem : st.feed.handshake.active ∈ st.feed.handshake.members
  size_lt : (st.feed.content st.feed.handshake.active).size < wordLimit

/-- The outcome of a call on a session, as the outcome of its program. -/
def outcome {α : Type} (s : Session τ) :
    Except Fault (α × Session τ) → EStateM.Result Panic (Desk τ) α
  | .ok (a, s') => .ok a s'.desk
  | .error f => .error (.fault f) s.desk

-- The checks of a call that opens a stream come before everything else.
theorem run_openStream (s : Session τ) (mem : Allocator) (requested : Format) :
    (openStream mem requested).run s.desk = outcome s (s.openStream mem requested) := by
  obtain ⟨t, c, stream, last, opens⟩ := s
  cases stream with
  | some st =>
    have hstate : st.phase.state ≠ .closed := by cases st.phase <;> decide
    rw [Session.openStream_of_open rfl]
    simp [openStream, Session.desk, Session.state, hstate, outcome, Session.wrongState]
  | none =>
    obtain ⟨r, hopen, hend⟩ :=
      Session.openStream_of_closed (s := ⟨t, c, none, last, opens⟩) rfl mem requested
    rw [hopen]
    simp only [openStream, Session.desk, Session.state]
    cases hend with
    | noFormat u hnegotiate =>
      simp [-bind_pure_comp, outcome, hnegotiate, Session.desk, Session.state]
    | noMemory f e hnegotiate hallocate =>
      simp [-bind_pure_comp, outcome, hnegotiate, hallocate, Session.desk, Session.state]
    | notCreated f b e t hnegotiate hallocate hcreate =>
      simp [-bind_pure_comp, outcome, hnegotiate, hallocate, hcreate, Session.desk, Session.state]
    | notRegistered f b h e t t' hnegotiate hallocate hcreate hregister =>
      simp [-bind_pure_comp, outcome, hnegotiate, hallocate, hcreate, hregister, Session.desk,
        Session.state]
    | installed f b h t t' threshold hnegotiate hallocate hcreate hregister hthreshold =>
      simp [-bind_pure_comp, outcome, hnegotiate, hallocate, hcreate, hregister, Session.desk,
        Session.state, Conduct.threshold, hthreshold, Session.install, Session.setStream]

theorem run_close (s : Session τ) : close.run s.desk = .ok () s.close.desk := by
  unfold close Session.close
  cases hst : s.stream with
  | none => simp [Session.desk, hst]
  | some st => simp [Session.desk, Session.state, hst]

omit [Transport τ] in
theorem run_write (hst : s.stream = some st) (slot : Slot) (edits : List Edit) :
    (write (some slot) edits).run s.desk = .ok () (s.write edits).desk := by
  unfold write Session.write
  simp [Session.desk, Session.state, Session.setStream, Stream.write, hst]

omit [Transport τ] in
theorem run_reading (s : Session τ) : reading.run s.desk = .ok s.reading s.desk := by
  unfold reading Session.reading
  cases hst : s.stream <;> simp [-bind_pure_comp, Session.desk, hst]

theorem run_pause (s : Session τ) :
    pause.run s.desk = outcome s (s.pause.map fun s' => ((), s')) := by
  unfold pause Session.pause
  cases hst : s.stream with
  | none => simp [Session.desk, Session.state, hst, outcome, Except.map, Session.wrongState]
  | some st =>
    cases hphase : st.phase with
    | opened =>
      simp [Session.desk, Session.state, hst, hphase, outcome, Except.map, Session.wrongState,
        Phase.state]
    | playing =>
      simp [Session.desk, Session.state, hst, hphase, outcome, Except.map, Phase.state, run_stream,
        Session.setStream]
    | paused => simp [Session.desk, Session.state, hst, hphase, outcome, Except.map, Phase.state]

theorem run_resume (s : Session τ) : resume.run s.desk = outcome s s.resume := by
  unfold resume Session.resume
  cases hst : s.stream with
  | none => simp [Session.desk, Session.state, hst, outcome, Session.wrongState]
  | some st =>
    cases hphase : st.phase with
    | opened =>
      simp [Session.desk, Session.state, hst, hphase, outcome, Session.wrongState, Phase.state]
    | playing =>
      simp [-bind_pure_comp, Session.desk, Session.state, hst, hphase, outcome, Phase.state]
    | paused =>
      rcases hstart : Transport.start s.transport st.handle st.format.frameRate
        st.format.layout.isStereo with ⟨e | u, t⟩
      · simp [-bind_pure_comp, Session.desk, Session.state, hst, hphase, outcome, Phase.state,
          run_stream, hstart]
      · simp [-bind_pure_comp, Session.desk, Session.state, hst, hphase, outcome, Phase.state,
          run_stream, hstart, Session.setStream]

/-- The local variables of a call that has been entered on this session. -/
def frame (s : Session τ) (c : Call) : Option Frame :=
  s.stream.map fun st => ⟨c, s.state, st.feed.handshake.active⟩

omit [Transport τ] in
-- What comes before the wait of a commit on a stream that is not paused.
theorem run_enterCommit {s : Session τ} {st : Stream} (hst : s.stream = some st)
    (hsolid : Solid st) (hphase : st.phase ≠ .paused) :
    (enter .commit).run s.desk = match s.enterCommit st with
      | .ok (.returned s') => .ok none s'.desk
      | .ok (.pending s') => .ok (frame s' .commit) s'.desk
      | .error f => .error (.fault f) s.desk := by
  obtain ⟨t, c, stream, last, opens⟩ := s
  obtain rfl : stream = some st := hst
  have hclosed : st.phase.state ≠ .closed := by cases st.phase <;> decide
  have hpaused : st.phase.state ≠ .paused := by
    cases hp : st.phase with
    | opened => decide
    | playing => decide
    | paused => exact absurd hp hphase
  unfold enter Session.enterCommit
  by_cases hfilling : st.feed.handshake.state st.feed.handshake.active = .filling
  · cases hwidens : st.widens with
    | false =>
      simp [-bind_pure_comp, Session.desk, Session.state, hclosed, hpaused, run_stream, hfilling,
        hwidens, Stream.widenActive, frame, Session.setStream]
    | true =>
      cases hwiden : (st.feed.content st.feed.handshake.active).widen st.format.encoding <;>
        simp [-bind_pure_comp, Session.desk, Session.state, hclosed, hpaused, run_stream, hfilling,
          hwidens, hwiden, Stream.widenActive, frame, Session.setStream, Feed.setContent,
          run_buffer _ hsolid.active_mem, run_widen _ _ hsolid.size_lt]
  · simp [-bind_pure_comp, Session.desk, Session.state, hclosed, hpaused, run_stream, hfilling]

omit [Transport τ] in
theorem run_enter (hsolid : ∀ st, s.stream = some st → Solid st) (c : Call) :
    (enter c).run s.desk = match s.enter c with
      | .ok (.returned s') => .ok none s'.desk
      | .ok (.pending s') => .ok (frame s' c) s'.desk
      | .error f => .error (.fault f) s.desk := by
  cases hst : s.stream with
  | none =>
    cases c <;> simp [enter, Session.enter, Session.desk, Session.state, hst, Session.wrongState]
  | some st =>
    cases c with
    | borrow =>
      cases hphase : st.phase <;>
        simp [-bind_pure_comp, enter, Session.enter, Session.desk, Session.state, hst, hphase,
          Phase.state, frame, run_stream, Session.wrongState]
    | commit =>
      cases hphase : st.phase with
      | opened =>
        rw [run_enterCommit hst (hsolid st hst) (by simp [hphase])]
        simp [Session.enter, hst, hphase]
      | playing =>
        rw [run_enterCommit hst (hsolid st hst) (by simp [hphase])]
        simp [Session.enter, hst, hphase]
      | paused =>
        simp [-bind_pure_comp, enter, Session.enter, Session.desk, Session.state, hst, hphase,
          Phase.state]
    | drain =>
      cases hphase : st.phase <;>
        simp [-bind_pure_comp, enter, Session.enter, Session.desk, Session.state, hst, hphase,
          Phase.state, frame, run_stream]

omit [Transport τ] in
-- A call that has been entered and has to be finished.
theorem enter_eq_ok (hsolid : ∀ st, s.stream = some st → Solid st) {c : Call} {f : Frame}
    {d : Desk τ} (h : (enter c).run s.desk = .ok (some f) d) :
    ∃ s', s.enter c = .ok (.pending s') ∧ frame s' c = some f := by
  rw [run_enter hsolid] at h
  split at h
  next => cases h
  next s' henter =>
    injection h with hf
    exact ⟨s', henter, hf⟩
  next => cases h

omit [Transport τ] in
theorem setStream_self (hst : s.stream = some st) : s.setStream st = s := by
  rw [Session.setStream, ← hst]

omit [Transport τ] in
-- A stream in the phase of the old one.
theorem desk_setStream (hst : s.stream = some st) {st' : Stream} (hphase : st'.phase = st.phase) :
    (s.setStream st').desk = ⟨s.setStream st', s.state⟩ := by
  simp [Session.desk, Session.state, Session.setStream, hst, hphase]

omit [Transport τ] in
theorem run_countStall (hst : s.stream = some st) (x : SessionState) (op : Operation)
    {stalled : Bool} (hroom : stalled = true → st.stalls.toNat + 1 < wordLimit) :
    (countStall op stalled).run ⟨s, x⟩ = .ok () ⟨s.setStream (st.countStall stalled), x⟩ := by
  cases stalled with
  | false =>
    rw [Stream.countStall, if_neg Bool.false_ne_true, setStream_self hst]
    rfl
  | true =>
    have hroom := hroom rfl
    simp [countStall, run_stream, hst, hroom, Stream.countStall]

omit [Transport τ] in
-- The slot that is handed over is the active one, which it was when the call was entered.
theorem run_handOver (hst : s.stream = some st) {stalled : Bool}
    (hroom : stalled = true → st.stalls.toNat + 1 < wordLimit)
    (hfilling : st.feed.handshake.state st.feed.handshake.active = .filling) :
    (handOver st.feed.handshake.active stalled).run s.desk =
      .ok () (s.setStream (st.handedOver stalled)).desk := by
  have hcount := run_countStall hst s.state .commit hroom
  have hstream : (stream .commit).run ⟨s.setStream (st.countStall stalled), s.state⟩ =
      .ok (st.countStall stalled) _ := run_stream _ rfl _
  have hhand : (st.countStall stalled).feed.handOver =
      .ok (st.feed.handshake.active, st.feed.setHandshake st.feed.handshake.handed) := by
    rw [Stream.feed_countStall, Feed.handOver_of_filling hfilling]
  have hdesk := desk_setStream hst (st.phase_handedOver stalled)
  have hsame : { st.countStall stalled with
      feed := st.feed.setHandshake st.feed.handshake.handed } = st.handedOver stalled := by
    cases stalled <;> rfl
  unfold handOver
  rw [hdesk]
  simp only [Session.desk, EStateM.run_bind, hcount, hstream, hhand, run_setStream, run_assert,
    decide_true, if_true, hsame]
  rfl

-- The stream is taken from the session that the call leaves behind.
theorem run_launch (hst : s.stream = some st) :
    launch.run s.desk = .ok (s.startFirst st).1 (s.startFirst st).2.desk := by
  unfold launch Session.startFirst
  rcases hstart : Transport.start s.transport st.handle st.format.frameRate
    st.format.layout.isStereo with ⟨e | u, t⟩
  · simp [-bind_pure_comp, Session.desk, Session.state, run_stream, hst, hstart, Session.setStream]
  · simp [-bind_pure_comp, Session.desk, Session.state, run_stream, hst, hstart, Session.setStream]

/-- The outcome of a call that may have to wait, as the outcome of its program. -/
def answered (s : Session τ) :
    Option (Answer × Session τ) → EStateM.Result Panic (Desk τ) (Option Answer)
  | none => .ok none s.desk
  | some (a, s') => .ok (some a) s'.desk

theorem run_finishBorrow (hst : s.stream = some st) (hsolid : Solid st) (x : SessionState)
    (slot : Slot) {stalled : Bool} (hroom : stalled = true → st.stalls.toNat + 1 < wordLimit)
    {r : Option (Answer × Session τ)} (h : s.finishBorrow st stalled = .ok r) :
    (finish ⟨.borrow, x, slot⟩ stalled).run s.desk = answered s r := by
  have hstream := run_stream s.desk hst .borrow
  unfold Session.finishBorrow at h
  unfold finish
  cases hstart : st.feed.startFilling with
  | error y =>
    simp only [hstart, Except.ok.injEq] at h
    subst h
    simp [hstream, hstart, answered]
  | ok y =>
    obtain ⟨next, feed⟩ := y
    simp only [hstart] at h
    split at h
    next => cases h
    next hsize =>
      cases h
      have hcount := run_countStall (s := s.setStream { st with feed }) rfl s.state .borrow hroom
      have hagain : (stream .borrow).run
          ⟨s.setStream ({ st with feed }.countStall stalled), s.state⟩ =
            .ok ({ st with feed }.countStall stalled) _ := run_stream _ rfl _
      have hdesk := desk_setStream hst (Stream.phase_countStall { st with feed } stalled)
      have hfeed : ({ st with feed }.countStall stalled).feed = feed := Stream.feed_countStall _ _
      have hfits : ({ st with feed }.countStall stalled).producerBytes ≤ (feed.content next).size :=
        Nat.le_of_not_lt hsize
      have hmem : next ∈ ({ st with feed }.countStall stalled).feed.handshake.members := by
        rw [hfeed]
        obtain ⟨rfl, -, rfl⟩ := Feed.startFilling_eq_ok hstart
        exact hsolid.active_mem
      simp only [Session.desk] at hstream
      rw [answered, hdesk]
      simp only [Session.desk, EStateM.run_bind, hstream, hstart, run_setStream]
      rw [hcount]
      simp only [Session.setStream] at hagain ⊢
      simp [hagain, run_buffer _ hmem, hfits]

theorem run_finishDrain (hst : s.stream = some st) (x : SessionState) (slot : Slot)
    {stalled : Bool} (hroom : stalled = true → st.stalls.toNat + 1 < wordLimit)
    {r : Option (Answer × Session τ)} (h : s.finishDrain st stalled = .ok r) :
    (finish ⟨.drain, x, slot⟩ stalled).run s.desk = answered s r := by
  have hstream := run_stream s.desk hst .drain
  have hcount := run_countStall hst s.state .drain hroom
  have hdesk := desk_setStream hst (st.phase_countStall stalled)
  unfold Session.finishDrain at h
  unfold finish
  split at h
  next hblocks =>
    cases h
    simp [hstream, hblocks, answered]
  next hblocks =>
    cases h
    rw [← Session.desk, ← hdesk] at hcount
    simp [-bind_pure_comp, hstream, hblocks, hcount, answered]

-- A commit on an opened stream starts the transport.
theorem run_finishCommit (hst : s.stream = some st) {stalled : Bool}
    (hroom : stalled = true → st.stalls.toNat + 1 < wordLimit)
    {r : Option (Answer × Session τ)} (h : s.finishCommit st stalled = .ok r) :
    (finish ⟨.commit, s.state, st.feed.handshake.active⟩ stalled).run s.desk = answered s r := by
  have hstream := run_stream s.desk hst .commit
  unfold Session.finishCommit at h
  unfold finish
  split at h
  next hblocks =>
    cases h
    simp [hstream, hblocks, answered]
  next hblocks =>
    split at h
    next => cases h
    next slot feed hhand =>
      obtain ⟨rfl, hfilling, rfl⟩ := Feed.handOver_eq_ok hhand
      have hover := run_handOver hst hroom hfilling
      have hlaunch := run_launch (s := s.setStream (st.handedOver stalled)) rfl
      -- the start looks at the stream as the hand-over has left it
      have hfirst : (s.setStream (st.handedOver stalled)).startFirst (st.handedOver stalled) =
          s.startFirst (st.handedOver stalled) := rfl
      have hstate : s.state = st.phase.state := by simp [Session.state, hst]
      dsimp only at h
      rw [← Stream.handedOver, Stream.phase_handedOver] at h
      cases hphase : st.phase with
      | opened =>
        rw [hphase] at h hstate
        cases h
        simp [-bind_pure_comp, hstream, hblocks, hover, hlaunch, hfirst, hstate, Phase.state,
          answered]
      | playing =>
        rw [hphase] at h hstate
        cases h
        simp [-bind_pure_comp, hstream, hblocks, hover, hstate, Phase.state, answered]
      | paused =>
        rw [hphase] at h hstate
        cases h
        simp [-bind_pure_comp, hstream, hblocks, hover, hstate, Phase.state, answered]

/-- A call that has been entered, and finds its stream in the state in which it was entered and with
the same active slot, does what is asked of it. -/
theorem run_finish (hst : s.stream = some st) (hsolid : Solid st) {c : Call} {stalled : Bool}
    (hroom : stalled = true → st.stalls.toNat + 1 < wordLimit)
    {r : Option (Answer × Session τ)} (h : s.finish c stalled = .ok r) :
    (finish ⟨c, s.state, st.feed.handshake.active⟩ stalled).run s.desk = answered s r := by
  unfold Session.finish at h
  rw [hst] at h
  cases c with
  | borrow => exact run_finishBorrow hst hsolid _ _ hroom h
  | commit => exact run_finishCommit hst hroom h
  | drain => exact run_finishDrain hst _ _ hroom h

end

end Conduct

end Playout

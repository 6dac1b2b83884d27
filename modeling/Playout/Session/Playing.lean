import Playout.Session.Opening
import Playout.Widening

/-!
# Producing audio

Three calls may have to wait for the device: `borrow` for a buffer to fill, `commit` for the buffer
handed over before, `drain` for everything handed over.  Such a call is entered, waits as long as it
is blocked, and is finished; the device may do anything in between.  `pause` and `resume` never
wait.

While the session is paused `commit` and `drain` return as soon as they are entered.
-/

namespace Playout

/-- The calls that may have to wait. -/
inductive Call where
  -- The buffer to fill next.
  | borrow
  -- Hand the filled buffer over.
  | commit
  -- Until everything handed over has been pulled.
  | drain
deriving DecidableEq, Repr

/-- How a call went on after it was entered. -/
inductive Entered (α : Type) where
  -- It is over.
  | returned (a : α)
  -- It has to be finished.
  | pending (a : α)
deriving DecidableEq, Repr

/-- What a call answers. -/
inductive Answer where
  -- The content of the buffer to fill.
  | buffer (bytes : Bytes)
  | done
  -- The transport did not start.
  | refused (e : Refusal)
deriving DecidableEq, Repr

namespace Stream

/-- Whether a call has to wait for the device. -/
def blocks (st : Stream) : Call → Bool
  | .borrow => !st.feed.handshake.isFillable
  | .commit => st.feed.handshake.siblingReady
  | .drain => st.feed.handshake.hasReady

/-- Duplicates the mono samples of the buffer being filled, if the stream wants it. -/
def widenActive (st : Stream) : Except Defect Stream :=
  if st.widens then
    match (st.feed.content st.feed.handshake.active).widen st.format.encoding with
    | .ok bytes => .ok { st with feed := st.feed.setContent st.feed.handshake.active bytes }
    | .error d => .error d
  else .ok st

def write (st : Stream) (edits : List Edit) : Stream :=
  { st with feed := st.feed.edit st.feed.handshake.active st.producerBytes edits }

end Stream

namespace Session

variable {τ : Type} [Transport τ]

/-! ## 1. Entering -/

/-- Enters `commit` on a stream that is not paused: the buffer must be the producer's. -/
def enterCommit (s : Session τ) (st : Stream) : Except Fault (Entered (Session τ)) :=
  let h := st.feed.handshake
  if h.state h.active ≠ .filling then
    .error (.contract (.notFilled h.active (h.state h.active)))
  else match st.widenActive with
    | .ok st => .ok (.pending (s.setStream st))
    | .error d => .error (.defect d)

/-- Enters a call: refuses it where the contract forbids it, and does what comes before the wait. -/
def enter (s : Session τ) : Call → Except Fault (Entered (Session τ))
  | .borrow =>
    match s.state with
    | .opened | .playing => .ok (.pending s)
    | .closed | .paused => .error (s.wrongState .borrow)
  | .commit =>
    match s.stream with
    | none => .error (s.wrongState .commit)
    | some st =>
      match st.phase with
      | .paused => .ok (.returned s)
      | .opened | .playing => s.enterCommit st
  | .drain =>
    match s.state with
    | .closed => .error (s.wrongState .drain)
    | .paused => .ok (.returned s)
    | .opened | .playing => .ok (.pending s)

/-- Whether a call, entered now, would have to wait. -/
def blocks (s : Session τ) (c : Call) : Bool :=
  match s.enter c with
  | .ok (.pending s) => s.stream.any (·.blocks c)
  | .ok (.returned _) | .error _ => false

/-! ## 2. Finishing -/

/-- Finishes `borrow`: the active slot becomes the producer's. -/
def finishBorrow (s : Session τ) (st : Stream) (stalled : Bool) :
    Except Fault (Option (Answer × Session τ)) :=
  match st.feed.startFilling with
  | .error _ => .ok none
  | .ok (slot, feed) =>
    let st := { st with feed }.countStall stalled
    if (feed.content slot).size < st.producerBytes then .error (.defect .sliceBounds)
    else .ok (some (.buffer ((feed.content slot).first st.producerBytes), s.setStream st))

/-- The first hand-over starts the transport.  If it does not start, the audio is discarded and
nothing has been handed over. -/
def startFirst (s : Session τ) (st : Stream) : Answer × Session τ :=
  match Transport.start s.transport st.handle st.format.frameRate st.format.layout.isStereo with
  | (.ok (), t) => (.done, { s with transport := t }.setStream { st with phase := .playing })
  | (.error e, t) =>
    let feed := st.feed.setHandshake st.feed.handshake.cleared
    (.refused e, { s with transport := t }.setStream { st with feed })

/-- Finishes `commit`: the active slot is handed over. -/
def finishCommit (s : Session τ) (st : Stream) (stalled : Bool) :
    Except Fault (Option (Answer × Session τ)) :=
  if st.blocks .commit then .ok none
  else match st.feed.handOver with
    | .error _ => .error (.defect .handOver)
    | .ok (_, feed) =>
      let st := { st with feed }.countStall stalled
      match st.phase with
      | .opened => .ok (some (s.startFirst st))
      | .playing | .paused => .ok (some (.done, s.setStream st))

def finishDrain (s : Session τ) (st : Stream) (stalled : Bool) :
    Except Fault (Option (Answer × Session τ)) :=
  if st.blocks .drain then .ok none
  else .ok (some (.done, s.setStream (st.countStall stalled)))

/-- Finishes a call that has been entered; `stalled` says whether its wait took longer than the
threshold.  No answer means that the call still has to wait. -/
def finish (s : Session τ) (c : Call) (stalled : Bool) :
    Except Fault (Option (Answer × Session τ)) :=
  match s.stream with
  | none => .ok none
  | some st =>
    match c with
    | .borrow => s.finishBorrow st stalled
    | .commit => s.finishCommit st stalled
    | .drain => s.finishDrain st stalled

/-- Enters and finishes a call in one go.  No answer means that it has to wait. -/
def call (s : Session τ) (c : Call) : Except Fault (Option (Answer × Session τ)) :=
  match s.enter c with
  | .error f => .error f
  | .ok (.returned s) => .ok (some (.done, s))
  | .ok (.pending s) => s.finish c false

def write (s : Session τ) (edits : List Edit) : Session τ :=
  match s.stream with
  | none => s
  | some st => s.setStream (st.write edits)

/-! ## 3. Pausing -/

/-- Stops the device and keeps every buffer as it is. -/
def pause (s : Session τ) : Except Fault (Session τ) :=
  match s.stream with
  | none => .error (s.wrongState .pause)
  | some st =>
    match st.phase with
    | .opened => .error (s.wrongState .pause)
    | .paused => .ok s
    | .playing =>
      .ok ({ s with transport := Transport.stop s.transport st.handle }.setStream
        { st with phase := .paused })

/-- Starts the device again.  If it does not start, the session stays paused. -/
def resume (s : Session τ) : Except Fault (Answer × Session τ) :=
  match s.stream with
  | none => .error (s.wrongState .resume)
  | some st =>
    match st.phase with
    | .opened => .error (s.wrongState .resume)
    | .playing => .ok (.done, s)
    | .paused =>
      match Transport.start s.transport st.handle st.format.frameRate
          st.format.layout.isStereo with
      | (.ok (), t) =>
        .ok (.done, { s with transport := t }.setStream { st with phase := .playing })
      | (.error e, t) => .ok (.refused e, { s with transport := t })

end Session

end Playout

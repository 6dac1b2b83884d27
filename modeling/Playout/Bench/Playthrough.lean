import Playout.Session.Playing
import Playout.Simulator

/-!
# Playing a whole piece

A producer writes one buffer after the other to a simulated device and waits for the last one.  What
the device records, and what is counted of it, does not hang on when the device pulls: it is enough
to let it pull where the producer waits.
-/

namespace Playout

/-- What is to be played, and where the producer pauses on the way. -/
structure Piece where
  -- What is written into each buffer.
  writes : List (List Edit)
  -- Whether the producer waits for each buffer.
  waitEach : Bool
  -- The buffers after which it pauses and resumes.
  pauseAfter : List Nat
deriving DecidableEq, Repr

/-- What a played piece leaves behind. -/
structure Playthrough where
  format : Format
  -- The producer's buffer size.
  bufferBytes : Nat
  -- The session after everything is closed.
  session : Session Simulator
deriving DecidableEq, Repr

namespace Session

/-- One round of the device on the open stream. -/
def pullOnce (s : Session Simulator) : Except Fault (Session Simulator) :=
  match s.stream with
  | none => .ok s
  | some st =>
    match s.transport.iterate st.handle st.feed with
    | .ok (d, feed) => .ok ({ s with transport := d }.setStream { st with feed })
    | .error e => .error (.defect e)

/-- Makes a call, letting the device pull once if it has to wait. -/
def callPulling (s : Session Simulator) (c : Call) : Except Fault (Session Simulator) := do
  match ← s.enter c with
  | .returned s => .ok s
  | .pending s =>
    let s ← if s.stream.any (·.blocks c) then s.pullOnce else .ok s
    match ← s.finish c false with
    | some (_, s) => .ok s
    | none => .ok s

def playBuffer (s : Session Simulator) (edits : List Edit) (waitAfter pauseAfter : Bool) :
    Except Fault (Session Simulator) := do
  let s ← s.callPulling .borrow
  let s ← (s.write edits).callPulling .commit
  let s ← if waitAfter then s.callPulling .drain else .ok s
  if pauseAfter then
    let s ← (← s.pause).callPulling .drain
    let (_, s) ← s.resume
    .ok s
  else .ok s

/-- Plays buffers one after the other, the first of them being number `i`. -/
def playBuffers (s : Session Simulator) (p : Piece) : (i : Nat) → List (List Edit) →
    Except Fault (Session Simulator)
  | _, [] => .ok s
  | i, edits :: rest => do
    let s ← s.playBuffer edits p.waitEach (p.pauseAfter.contains i)
    s.playBuffers p (i + 1) rest

end Session

/-- Plays a piece on a simulated device. -/
def Piece.play (p : Piece) (device : Simulator) (settings : Settings) (requested : Format) :
    Except Fault (Except OpeningError Playthrough) := do
  let (opened, s) ← (Session.new device settings).openStream .machine requested
  match opened with
  | .error e => .ok (.error e)
  | .ok format =>
    let bufferBytes := s.producerBytes?.getD 0
    let s ← s.playBuffers p 0 p.writes
    let s ← s.callPulling .drain
    .ok (.ok ⟨format, bufferBytes, s.close⟩)

end Playout

import Playout.Consumer
import Playout.Transport

/-!
# Sessions

A `Session` owns a transport and settings, and while it is open a `Stream`: the feed that the device
pulls from, and what the producer needs to know about it.  A session is closed exactly when it has
no stream.
-/

namespace Playout

/-- How far an open stream has come. -/
inductive Phase where
  -- Nothing has been started.
  | opened
  -- The device pulls.
  | playing
  -- The device is stopped.
  | paused
deriving DecidableEq, Repr, Inhabited

def Phase.state : Phase → SessionState
  | .opened => .opened
  | .playing => .playing
  | .paused => .paused

/-- An open stream. -/
@[ext] structure Stream where
  -- The number of the feed, which no other stream of the session has.
  number : Nat
  handle : Handle
  feed : Feed
  -- Whether the producer writes mono and the device plays stereo.
  widens : Bool
  -- Waits beyond this are stalls.
  stallThreshold : Duration
  -- The producer calls that stalled.
  stalls : UInt64
  phase : Phase
deriving DecidableEq, Repr

namespace Stream

/-- What the device plays. -/
def format (st : Stream) : Format := st.feed.format

/-- The bytes that the producer writes per buffer: half of it when mono is duplicated. -/
def producerBytes (st : Stream) : Nat :=
  if st.widens then st.feed.bufferBytes / 2 else st.feed.bufferBytes

/-- A reading of all counters. -/
def reading (st : Stream) : Reading := st.feed.reading st.stalls

/-- The stream after a wait: a stall is counted once, however long it took. -/
def countStall (st : Stream) (stalled : Bool) : Stream :=
  if stalled then { st with stalls := st.stalls + 1 } else st

end Stream

/-- A session over a transport. -/
@[ext] structure Session (τ : Type) where
  transport : τ
  settings : Settings
  stream : Option Stream
  -- The counters of the stream closed last.
  last : Reading
  -- How many streams have been opened.
  opens : Nat
deriving DecidableEq, Repr

namespace Session

variable {τ : Type}

/-- A closed session.  Nothing is allocated and the transport is not called. -/
def new (transport : τ) (settings : Settings) : Session τ := ⟨transport, settings, none, .zero, 0⟩

def state (s : Session τ) : SessionState :=
  match s.stream with
  | none => .closed
  | some st => st.phase.state

def format? (s : Session τ) : Option Format := s.stream.map (·.format)

def producerBytes? (s : Session τ) : Option Nat := s.stream.map (·.producerBytes)

/-- The counters of the open stream, or of the one closed last. -/
def reading (s : Session τ) : Reading :=
  match s.stream with
  | some st => st.reading
  | none => s.last

def setStream (s : Session τ) (st : Stream) : Session τ := { s with stream := some st }

/-- Replaces the settings.  An open stream keeps its own. -/
def configure (s : Session τ) (settings : Settings) : Session τ := { s with settings }

/-- A call that does not go with the state of the session. -/
def wrongState (s : Session τ) (op : Operation) : Fault := .contract (.wrongState op s.state)

end Session

end Playout

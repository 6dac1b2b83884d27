import Playout.Format
import Playout.Gain

/-!
# Settings

What a session is told before it opens a stream.  Nothing here is read again until the next stream
is opened.
-/

namespace Playout

/-- What a device gets when it pulls and nothing has been committed. -/
inductive Fallback where
  -- The last buffer it took, or silence while that one is being refilled.
  | replay
  -- Always silence.
  | silence
deriving DecidableEq, Repr, Inhabited, Ord

namespace Fallback

def all : List Fallback := [.replay, .silence]

def index : Fallback → Nat
  | .replay => 0
  | .silence => 1

def name : Fallback → String
  | .replay => "stale"
  | .silence => "silence"

/-- Reads a name exactly as `name` writes it. -/
def ofName? (s : String) : Option Fallback := all.find? (·.name == s)

end Fallback

/-- How a producer waits for the device. -/
inductive WaitMode where
  -- Sleep until the device gives a buffer back.
  | wakeup
  -- Sleep for a while, look, repeat.
  | polling
deriving DecidableEq, Repr, Inhabited, Ord

namespace WaitMode

def all : List WaitMode := [.wakeup, .polling]

def index : WaitMode → Nat
  | .wakeup => 0
  | .polling => 1

def name : WaitMode → String
  | .wakeup => "park"
  | .polling => "poll"

/-- Reads a name exactly as `name` writes it. -/
def ofName? (s : String) : Option WaitMode := all.find? (·.name == s)

end WaitMode

/-- How many buffers' worth of playing time a wait may take before it counts as a stall. -/
def stallBuffers : Nat := 4

/-- The settings of a session. -/
@[ext] structure Settings where
  -- The encoding to ask for in place of the requested one.
  encoding : Option Encoding
  -- Whether one buffer is filled while the other plays.
  doubleBuffered : Bool
  gain : Gain
  -- Frames per buffer.
  frameCount : UInt64
  -- Byte alignment of each buffer, a power of two.
  alignment : UInt64
  fallback : Fallback
  waitMode : WaitMode
  -- The longest single sleep while waiting.
  pollInterval : Duration
  -- Waits beyond this are counted as stalls; without it, `stallBuffers` buffers' playing time.
  stallThreshold : Option Duration
  -- Whether the opening thread asks for real-time scheduling.  That never changes an answer.
  realtimePriority : Bool
deriving DecidableEq, Repr

namespace Settings

/-- Two buffers of 2048 frames at full level, and a look every five milliseconds while waiting. -/
def standard : Settings where
  encoding := none
  doubleBuffered := true
  gain := .standard
  frameCount := 2048
  alignment := 32
  fallback := .replay
  waitMode := .wakeup
  pollInterval := ⟨5000000, by decide⟩
  stallThreshold := none
  realtimePriority := false

/-- The standard settings with one shared buffer. -/
def singleBuffered : Settings := { standard with doubleBuffered := false }

instance : Inhabited Settings := ⟨standard⟩

/-- The format to negotiate for a request: the configured encoding goes first. -/
def override (c : Settings) (requested : Format) : Format :=
  match c.encoding with
  | some e => { requested with encoding := e }
  | none => requested

end Settings

end Playout

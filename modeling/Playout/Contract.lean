import Playout.Slot

/-!
# The calling contract

Some calls are mistakes of the caller: committing a buffer that was never asked for, pausing what
does not play.  Such a call is a `Violation`, is answered by its text and changes nothing.  A
`Defect` is a check of the library on itself.
-/

namespace Playout

/-! ## 1. Where a session stands -/

/-- The life of a session.  The order of the constructors is the order of comparison. -/
inductive SessionState where
  -- No buffers, no stream.
  | closed
  -- Buffers and stream exist; nothing has been started.
  | opened
  -- The device pulls.
  | playing
  -- The device is stopped; the buffers are kept.
  | paused
deriving DecidableEq, Repr, Inhabited, Ord

namespace SessionState

def all : List SessionState := [.closed, .opened, .playing, .paused]

def name : SessionState → String
  | .closed => "closed"
  | .opened => "opened"
  | .playing => "playing"
  | .paused => "paused"

end SessionState

/-! ## 2. Mistakes of the caller -/

/-- The calls that are wrong in some states. -/
inductive Operation where
  | openStream
  -- Asking for the buffer to fill next.
  | borrow
  | commit
  -- Waiting until everything committed has been pulled.
  | drain
  | pause
  | resume
deriving DecidableEq, Repr

def Operation.name : Operation → String
  | .openStream => "open()"
  | .borrow => "get_buffer()"
  | .commit => "commit()"
  | .drain => "wait()"
  | .pause => "pause()"
  | .resume => "resume()"

/-- A call that the contract forbids. -/
inductive Violation where
  -- The call does not go with the state of the session.
  | wrongState (op : Operation) (state : SessionState)
  -- A commit of a buffer that the producer does not hold.
  | notFilled (slot : Slot) (state : SlotState)
deriving DecidableEq, Repr

def Violation.message (v : Violation) : String :=
  "pullbridge contract violation: " ++ match v with
    | .wrongState op state => op.name ++ " on a " ++ state.name ++ " session"
    | .notFilled slot state =>
      "commit() without get_buffer(), slot " ++ toString slot.index ++ " is " ++ state.name

/-! ## 3. Checks of the library on itself -/

/-- A condition that the library relies on and checks. -/
inductive Defect where
  -- Samples that do not stand on their own cannot be duplicated.
  | notLinear
  -- A buffer of mono samples duplicated in place has an even length.
  | oddLength
  -- A slice reaches beyond its buffer.
  | sliceBounds
  -- The slot handed over is not the one that was filled.
  | handOver
  -- A slot given back was not being read.
  | giveBackUnclaimed
  -- A stall threshold beyond the longest duration.
  | durationOverflow
deriving DecidableEq, Repr

def Defect.message : Defect → String
  | .notLinear => "samples of this encoding cannot be duplicated"
  | .oddLength => "a buffer of odd length cannot be duplicated in place"
  | .sliceBounds => "the slice reaches beyond its buffer"
  | .handOver => "the slot handed over was not the one filled"
  | .giveBackUnclaimed => "the slot given back was not being read"
  | .durationOverflow => "overflow when multiplying duration by scalar"

/-- Why a call ended without an answer. -/
inductive Fault where
  | contract (v : Violation)
  | defect (d : Defect)
deriving DecidableEq, Repr

def Fault.message : Fault → String
  | .contract v => v.message
  | .defect d => d.message

end Playout

import Playout.Negotiation

/-!
# Failures

Why a buffer could not be allocated, why a transport refused, and why a stream could not be opened.
Each is a type of causes with one function for its text.
-/

namespace Playout

/-- Why buffers, or a handle for them, could not be had. -/
inductive AllocationError where
  -- A buffer would hold nothing.
  | empty
  -- No memory could hold a buffer of this size.
  | tooLarge
  -- The alignment is not a power of two.
  | badAlignment (align : Nat)
  -- The allocator refused.
  | outOfMemory (bytes : Nat)
  -- The transport has no free stream.
  | noHandle
deriving DecidableEq, Repr

namespace AllocationError

def message : AllocationError → String
  | .empty => "buffer size is zero"
  | .tooLarge => "buffer size overflows"
  | .badAlignment align =>
    "buffer alignment " ++ quoted (toString align) ++ " is not a power of two"
  | .outOfMemory bytes => "out of memory allocating " ++ toString bytes ++ " bytes"
  | .noHandle => "no free transport stream handles"
where
  -- Text between grave accents.
  quoted (s : String) : String := "\x60" ++ s ++ "\x60"

end AllocationError

/-- Why a transport refused a call. -/
inductive Refusal where
  -- There is no hardware or server.
  | unavailable
  | badFormat
  -- There is no stream of that handle.
  | unknownHandle
  -- There are as many streams as there can be.
  | noHandle
  -- The stream is gone.
  | closed
  -- Anything else, in words.
  | other (detail : String)
deriving DecidableEq, Repr

namespace Refusal

def message : Refusal → String
  | .unavailable => "audio hardware/server is unavailable"
  | .badFormat => "audio format is invalid or unsupported by the transport"
  | .unknownHandle => "stream handle is invalid"
  | .noHandle => "no free stream handles"
  | .closed => "audio stream was closed"
  | .other detail => "unknown error: " ++ detail

end Refusal

/-- Why a stream could not be opened. -/
inductive OpeningError where
  -- No format could be agreed on.
  | noCommonFormat (u : NoCommonFormat)
  -- Buffers or a stream handle could not be had.
  | allocation (f : AllocationError)
  -- The transport's stream could not be created or set up.
  | setUp (e : Refusal)
deriving DecidableEq, Repr

namespace OpeningError

/-- Running out of handles counts as an allocation failure, every other refusal as the
transport's own. -/
def ofRefusal : Refusal → OpeningError
  | .noHandle => .allocation .noHandle
  | e => .setUp e

def message : OpeningError → String
  | .noCommonFormat u => u.message
  | .allocation f => "allocation failure: " ++ f.message
  | .setUp e => "transport init failure: " ++ e.message

end OpeningError

end Playout

import Playout.Capabilities
import Playout.Failure
import Playout.Gain

/-!
# Transports

A `Transport` is a device, or a sound server, as a session sees it: a state that answers seven
calls.  Every call gives back the state after it, so a transport is a value like any other, and a
program over one is a function.
-/

namespace Playout

/-- The name of a stream on its transport. -/
@[ext] structure Handle where
  id : UInt32
deriving DecidableEq, Repr, Inhabited, Ord

/-- The text of a handle, such as `#3`. -/
def Handle.render (h : Handle) : String := "#" ++ toString h.id.toNat

/-- A feed as its transport knows it: its number, and the format its buffers are in. -/
@[ext] structure FeedRef where
  number : Nat
  format : Format
deriving DecidableEq, Repr

/-- The calls that a session makes. -/
class Transport (τ : Type) where
  -- What the device plays.
  capabilities : τ → Capabilities
  -- A new stream that pulls up to that many bytes at a time.
  create : τ → (bytes : Nat) → Except Refusal Handle × τ
  -- Ties a feed to a stream.
  register : τ → Handle → FeedRef → Except Refusal Unit × τ
  -- The output level of a stream.  Unknown handles are ignored.
  setGain : τ → Handle → Gain → τ
  -- Begins to pull.
  start : τ → Handle → (rate : UInt32) → (stereo : Bool) → Except Refusal Unit × τ
  -- Stops pulling; afterwards no pull is under way.
  stop : τ → Handle → τ
  -- Gives up the stream and its feed.
  destroy : τ → Handle → τ

/-- A call as a transport receives it. -/
inductive TransportCall where
  | create (bytes : Nat)
  | register (h : Handle)
  | setGain (h : Handle) (gain : Gain)
  | start (h : Handle) (rate : UInt32) (stereo : Bool)
  | stop (h : Handle)
  | destroy (h : Handle)
deriving DecidableEq, Repr

end Playout

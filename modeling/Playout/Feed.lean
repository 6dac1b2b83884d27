import Playout.Buffers
import Playout.Settings
import Playout.Contract
import Playout.Counters

/-!
# The feed

A `Feed` is what a stream shows to the device: the buffers, the handshake over them and the
counters.  `pull` hands out audio as a `Pull`, which keeps its slot claimed until it is dropped.

A pull finds one of three things.  A ready slot is claimed and delivered.  Otherwise the pull is an
underrun and reads the slot of the last claim once more, if the feed falls back on that and the slot
is empty, or else silence.
-/

namespace Playout

/-! ## 1. Feeds and pulls -/

/-- The device's side of a stream. -/
@[ext] structure Feed extends Buffers where
  -- What the device plays.
  format : Format
  fallback : Fallback
  counters : Counters
deriving DecidableEq, Repr

/-- Audio in the hands of the device. -/
@[ext] structure Pull where
  -- The slot to give back; silence claims none.
  claimed : Option Slot
  -- How many bytes can be read.
  length : Nat
  -- How many of them are freshly committed audio: all or none.
  delivered : Nat
deriving DecidableEq, Repr

namespace Pull

/-- Whether the pull asked for something and found nothing committed. -/
def isUnderrun (p : Pull) : Bool := p.delivered == 0 && p.length != 0

def silence (length : Nat) : Pull := ⟨none, length, 0⟩

end Pull

namespace Feed

/-- A feed over fresh buffers. -/
def ofBuffers (b : Buffers) (format : Format) (fallback : Fallback) : Feed :=
  { b with format, fallback, counters := .zero }

def content (f : Feed) (s : Slot) : Bytes := f.slots.get s

def setContent (f : Feed) (s : Slot) (b : Bytes) : Feed := { f with slots := f.slots.set s b }

def setHandshake (f : Feed) (h : Handshake) : Feed := { f with handshake := h }

/-! ## 2. The consumer -/

/-- How many bytes a request gets: never more than a buffer holds. -/
def grant (f : Feed) (requested : Nat) : Nat := min requested f.bufferBytes

/-- What an underrun claims. -/
def claimReplay (f : Feed) : Option (Slot × Handshake) :=
  match f.fallback with
  | .replay => f.handshake.reclaim
  | .silence => none

/-- Hands the device up to that many bytes.  A request for nothing changes nothing. -/
def pull (f : Feed) (requested : Nat) : Pull × Feed :=
  let length := f.grant requested
  if length = 0 then (.silence 0, f)
  else match f.handshake.claimReady with
    | some (s, h) =>
      (⟨some s, length, length⟩,
        { f with handshake := h, counters := f.counters.addDelivery length })
    | none =>
      let missed := { f with counters := f.counters.addUnderrun }
      match f.claimReplay with
      | some (s, h) => (⟨some s, length, 0⟩, missed.setHandshake h)
      | none => (.silence length, missed)

/-- The bytes that a pull shows at this moment. -/
def read (f : Feed) (p : Pull) : Bytes :=
  match p.claimed with
  | some s => (f.content s).first p.length
  | none => f.silence.first p.length

/-- Ends a pull and gives its slot back. -/
def drop (f : Feed) (p : Pull) : Except Defect Feed :=
  match p.claimed with
  | none => .ok f
  | some s =>
    if f.handshake.state s = .consumed then .ok (f.setHandshake (f.handshake.giveBack s))
    else .error .giveBackUnclaimed

/-! ## 3. The producer -/

/-- Starts or goes on filling the active slot. -/
def startFilling (f : Feed) : Except SlotState (Slot × Feed) :=
  match f.handshake.startFilling with
  | .ok (s, h) => .ok (s, f.setHandshake h)
  | .error x => .error x

/-- Hands the active slot over. -/
def handOver (f : Feed) : Except SlotState (Slot × Feed) :=
  match f.handshake.handOver with
  | .ok (s, h) => .ok (s, f.setHandshake h)
  | .error x => .error x

/-- Writes into the first `length` bytes of a slot. -/
def edit (f : Feed) (s : Slot) (length : Nat) (edits : List Edit) : Feed :=
  f.setContent s ((f.content s).overwrite (Edit.applyAll edits ((f.content s).first length)))

/-- Starts filling the active slot and writes into the whole of it. -/
def fill (f : Feed) (edits : List Edit) : Except SlotState (Slot × Feed) :=
  match f.startFilling with
  | .ok (s, f) => .ok (s, f.edit s f.bufferBytes edits)
  | .error x => .error x

/-- Fills the active slot and hands it over. -/
def commit (f : Feed) (edits : List Edit) : Except SlotState (Slot × Feed) :=
  match f.fill edits with
  | .ok (_, f) => f.handOver
  | .error x => .error x

/-- A reading of the counters, with the producer's own count of stalls. -/
def reading (f : Feed) (stalls : UInt64) : Reading := f.counters.reading stalls

end Feed

end Playout

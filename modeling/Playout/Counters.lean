/-!
# Counters

What a stream has counted: how often the device pulled, how much it was given, how often there was
nothing, and how often the producer had to wait too long.  All counters are machine words and wrap.
-/

namespace Playout

/-- A reading of all counters.  Readings compare field by field, in this order. -/
@[ext] structure Reading where
  -- Pulls, those that found nothing included.
  pulls : UInt64
  -- Bytes handed over from committed buffers.
  deliveredBytes : UInt64
  -- Pulls that found nothing committed.
  underruns : UInt64
  -- Producer calls that waited longer than the stall threshold.
  stalls : UInt64
deriving DecidableEq, Repr, Inhabited, Ord

def Reading.zero : Reading := ⟨0, 0, 0, 0⟩

@[ext] structure Counters where
  pulls : UInt64
  deliveredBytes : UInt64
  underruns : UInt64
deriving DecidableEq, Repr

namespace Counters

def zero : Counters := ⟨0, 0, 0⟩

/-- Counts a pull that was given that many bytes. -/
def addDelivery (c : Counters) (bytes : Nat) : Counters :=
  { c with pulls := c.pulls + 1, deliveredBytes := c.deliveredBytes + UInt64.ofNat bytes }

/-- Counts a pull that found nothing. -/
def addUnderrun (c : Counters) : Counters :=
  { c with pulls := c.pulls + 1, underruns := c.underruns + 1 }

/-- A reading, with the producer's own count of stalls. -/
def reading (c : Counters) (stalls : UInt64) : Reading :=
  ⟨c.pulls, c.deliveredBytes, c.underruns, stalls⟩

end Counters

end Playout

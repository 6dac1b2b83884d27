import Playout.Bytes
import Playout.Failure
import Playout.Handshake

/-!
# Buffers

The memory of a stream: one buffer for each slot, one of silence, all of one size, and the handshake
over the slots.  `Buffers.allocate` is the only way to get them.
-/

namespace Playout

/-- What the memory manager answers: whether it grants the n-th request, for that many bytes at that
alignment. -/
abbrev Allocator := (request bytes align : Nat) → Bool

namespace Allocator

/-- A manager for programs that have that many addresses.  A block starts at a multiple of its
alignment and never at zero, so it ends no earlier than the sum of its alignment and its size. -/
def within (addresses : Nat) : Allocator :=
  fun _ bytes align => decide (align + bytes ≤ addresses)

/-- A manager for the programs of a machine with 64-bit words.  Each has two to the 47th addresses,
half of those that have 48 bits. -/
def machine : Allocator := within 140737488355328

end Allocator

@[ext] structure Buffers where
  -- The content of each slot; a slot that takes no part has none.
  slots : PerSlot Bytes
  -- Handed out when there is nothing else, and never written.
  silence : Bytes
  handshake : Handshake
deriving DecidableEq, Repr

namespace Buffers

def bufferBytes (b : Buffers) : Nat := b.silence.size

/-- The sizes of all buffers: the slots that take part, then silence. -/
def sizes (b : Buffers) : List Nat :=
  b.handshake.members.map (fun s => (b.slots.get s).size) ++ [b.silence.size]

/-- All buffers of one size and zero, nothing filled. -/
def zeroed (double : Bool) (bytes : Nat) : Buffers where
  slots := ⟨.zeros bytes, if double then .zeros bytes else #[]⟩
  silence := .zeros bytes
  handshake := .initial double

def isZero (b : Buffers) : Bool :=
  b.slots.a.all (· == 0) && b.slots.b.all (· == 0) && b.silence.all (· == 0)

end Buffers

def isPowerOfTwo (n : Nat) : Bool := n != 0 && 1 <<< n.log2 == n

/-- Asks for one buffer: the check of its size and alignment, then the manager's answer.  The size
and the alignment together must stay within half the address space. -/
def requestBuffer (mem : Allocator) (request bytes align : Nat) : Except AllocationError Unit :=
  if bytes = 0 then .error .empty
  else if isPowerOfTwo align = false then .error (.badAlignment align)
  else if objectLimit < bytes + align then .error .tooLarge
  else if mem request bytes align = false then .error (.outOfMemory bytes)
  else .ok ()

/-- Asks for `count` buffers one after the other; the first refusal ends it. -/
def requestBuffers (mem : Allocator) (bytes align : Nat) : (request count : Nat) →
    Except AllocationError Unit
  | _, 0 => .ok ()
  | request, count + 1 =>
    match requestBuffer mem request bytes align with
    | .error e => .error e
    | .ok () => requestBuffers mem bytes align (request + 1) count

/-- Buffers for `frames` frames of a format: one or two slots and silence, all zero. -/
def Buffers.allocate (mem : Allocator) (f : Format) (frames : Nat) (double : Bool) (align : Nat) :
    Except AllocationError Buffers :=
  match f.byteSize? frames with
  | none => .error .tooLarge
  | some bytes =>
    match requestBuffers mem bytes align 0 (if double then 3 else 2) with
    | .error e => .error e
    | .ok () => .ok (.zeroed double bytes)

end Playout

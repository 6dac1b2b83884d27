import Playout.Slot

/-!
# The handshake

The producer fills the active slot and hands it over; the consumer claims a ready slot, reads it and
gives it back.  When there are two slots the producer moves on to the other one after each
hand-over.  When nothing is ready the consumer may claim once more the slot it read last, as long as
that slot is empty.

Each operation is one step that either takes place as a whole or leaves everything as it was.  A
refused step returns no new handshake at all.
-/

namespace Playout

/-- The states of a stream's slots, and the two places that the sides remember. -/
@[ext] structure Handshake where
  -- Whether the second slot takes part.
  double : Bool
  states : PerSlot SlotState
  -- The slot the producer fills next.
  active : Slot
  -- The slot the consumer claimed last.
  last : Slot
deriving DecidableEq, Repr

namespace Handshake

/-- Nothing filled, nothing claimed. -/
def initial (double : Bool) : Handshake := ⟨double, .both .empty, .a, .a⟩

/-- The slots that take part, lowest first. -/
def members (h : Handshake) : List Slot := if h.double then [.a, .b] else [.a]

def state (h : Handshake) (s : Slot) : SlotState := h.states.get s

def memberStates (h : Handshake) : List SlotState := h.members.map h.state

def setState (h : Handshake) (s : Slot) (x : SlotState) : Handshake :=
  { h with states := h.states.set s x }

/-! ## 1. Questions -/

/-- Whether some slot waits for the consumer. -/
def hasReady (h : Handshake) : Bool := h.members.any fun s => decide (h.state s = .ready)

/-- Whether the producer can write the active slot without waiting. -/
def isFillable (h : Handshake) : Bool := (h.state h.active).isFillable

/-- Whether the slot handed over before the active one still waits.  A single slot is never beside
itself. -/
def siblingReady (h : Handshake) : Bool := h.double && decide (h.state h.active.other = .ready)

/-! ## 2. The producer -/

/-- Starts or goes on filling the active slot.  A slot that is waiting or being read stops it. -/
def startFilling (h : Handshake) : Except SlotState (Slot × Handshake) :=
  match (h.state h.active).exchange .empty .filling with
  | .ok x => .ok (h.active, h.setState h.active x)
  | .error .filling => .ok (h.active, h)
  | .error x => .error x

/-- Hands the active slot over; the producer turns to the other one if there are two. -/
def handOver (h : Handshake) : Except SlotState (Slot × Handshake) :=
  match (h.state h.active).exchange .filling .ready with
  | .ok x =>
    let handed := h.setState h.active x
    .ok (h.active, if h.double then { handed with active := h.active.other } else handed)
  | .error x => .error x

/-! ## 3. The consumer -/

/-- Claims the lowest slot that waits. -/
def claimReady (h : Handshake) : Option (Slot × Handshake) :=
  match h.members.find? fun s => decide (h.state s = .ready) with
  | some s => some (s, { h.setState s .consumed with last := s })
  | none => none

/-- Claims the slot of the last claim once more, if nobody has touched it since. -/
def reclaim (h : Handshake) : Option (Slot × Handshake) :=
  match (h.state h.last).exchange .empty .consumed with
  | .ok x => some (h.last, h.setState h.last x)
  | .error _ => none

/-- Gives a claimed slot back. -/
def giveBack (h : Handshake) (s : Slot) : Handshake := h.setState s .empty

/-- Gives back the slot of that number, if it takes part and is being read. -/
def giveBackIndex? (h : Handshake) (i : Nat) : Option Handshake := do
  let s ← h.members.find? (·.index == i)
  if h.state s = .consumed then some (h.giveBack s) else none

/-- Forgets everything.  Right only while nobody can be reading. -/
def cleared (h : Handshake) : Handshake := initial h.double

/-! ## 4. What each step leaves -/

theorem state_setState (h : Handshake) (s t : Slot) (x : SlotState) :
    (h.setState s x).state t = if t = s then x else h.state t :=
  h.states.get_set s t x

@[simp] theorem state_setState_self (h : Handshake) (s : Slot) (x : SlotState) :
    (h.setState s x).state s = x :=
  h.states.get_set_self s x

@[simp] theorem double_setState (h : Handshake) (s : Slot) (x : SlotState) :
    (h.setState s x).double = h.double := rfl

@[simp] theorem active_setState (h : Handshake) (s : Slot) (x : SlotState) :
    (h.setState s x).active = h.active := rfl

@[simp] theorem last_setState (h : Handshake) (s : Slot) (x : SlotState) :
    (h.setState s x).last = h.last := rfl

/-- Filling is refused exactly where the producer would have to wait. -/
theorem startFilling_isOk_iff (h : Handshake) :
    (∃ r, h.startFilling = .ok r) ↔ h.isFillable = true := by
  unfold startFilling isFillable SlotState.exchange
  cases h.state h.active <;> simp [SlotState.isFillable]

end Handshake

end Playout

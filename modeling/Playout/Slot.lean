/-!
# Slots

A stream has one or two buffers.  `Slot` names them, `PerSlot` holds something for each, and
`SlotState` says who may touch a buffer at the moment.
-/

namespace Playout

/-! ## 1. Which buffer -/

/-- The first buffer, or the second one of a double-buffered stream. -/
inductive Slot where
  | a
  | b
deriving DecidableEq, Repr, Inhabited

namespace Slot

def index : Slot → Nat
  | .a => 0
  | .b => 1

def ofIndex? : Nat → Option Slot
  | 0 => some .a
  | 1 => some .b
  | _ => none

/-- The slot beside this one. -/
def other : Slot → Slot
  | .a => .b
  | .b => .a

@[simp] theorem other_other (s : Slot) : s.other.other = s := by cases s <;> rfl

theorem other_ne (s : Slot) : s.other ≠ s := by cases s <;> decide

theorem eq_or_eq_other (s t : Slot) : t = s ∨ t = s.other := by
  cases s <;> cases t <;> simp [other]

end Slot

/-- One value for each slot. -/
@[ext] structure PerSlot (α : Type) where
  a : α
  b : α
deriving DecidableEq, Repr

namespace PerSlot

variable {α : Type}

def both (x : α) : PerSlot α := ⟨x, x⟩

def get (p : PerSlot α) : Slot → α
  | .a => p.a
  | .b => p.b

def set (p : PerSlot α) (s : Slot) (x : α) : PerSlot α :=
  match s with
  | .a => { p with a := x }
  | .b => { p with b := x }

@[simp] theorem get_both (x : α) (s : Slot) : (both x).get s = x := by cases s <;> rfl

theorem get_set (p : PerSlot α) (s t : Slot) (x : α) :
    (p.set s x).get t = if t = s then x else p.get t := by
  cases s <;> cases t <;> rfl

@[simp] theorem get_set_self (p : PerSlot α) (s : Slot) (x : α) : (p.set s x).get s = x := by
  cases s <;> rfl

theorem get_set_of_ne (p : PerSlot α) {s t : Slot} (x : α) (h : t ≠ s) :
    (p.set s x).get t = p.get t := by
  simp [get_set, h]

@[simp] theorem set_get (p : PerSlot α) (s : Slot) : p.set s (p.get s) = p := by
  cases s <;> rfl

end PerSlot

/-! ## 2. Who may touch it -/

/-- The state of one buffer in the handshake between producer and consumer. -/
inductive SlotState where
  -- Nobody touches the buffer.
  | empty
  -- The producer writes it.
  | filling
  -- It is completely written and waits for the consumer.
  | ready
  -- The consumer reads it.
  | consumed
deriving DecidableEq, Repr, Inhabited

namespace SlotState

def all : List SlotState := [.empty, .filling, .ready, .consumed]

def name : SlotState → String
  | .empty => "Empty"
  | .filling => "Filling"
  | .ready => "Ready"
  | .consumed => "Consumed"

/-- Compare and exchange: the next state if the actual one is as expected, else the actual one. -/
def exchange (actual expected next : SlotState) : Except SlotState SlotState :=
  if actual = expected then .ok next else .error actual

/-- Whether the producer can start or go on writing. -/
def isFillable : SlotState → Bool
  | .empty | .filling => true
  | .ready | .consumed => false

end SlotState

end Playout

import Mathlib.Algebra.GroupWithZero.Nat
import Playout.Proofs.Replay
import Playout.Proofs.Waiting

/-!
# Books

What a log says about the counters.  An epoch is the time from one opening to the close that follows
it.  Of its entries count the pulls from its own feed that asked for something, what these delivered,
and the calls that have waited for too long.  `Books` are the same, kept up entry by entry.
-/

namespace Playout

/-! ## 1. What the log says -/

namespace Entry

/-- What a pull from feed `k` delivered, if it asked for something. -/
def pulled? (k : Nat) : Entry → Option Nat
  | .event (.device j c (.audio _ delivered _)) _ =>
    match c.asks with
    | some n => if j = k ∧ n ≠ 0 then some delivered else none
    | none => none
  | _ => none

/-- Whether a call on the stream of feed `k` has waited at least once for longer than that. -/
def isStall (k limit : Nat) : Entry → Bool
  | .waited j nanos => decide (j = k) && nanos.any (limit < ·)
  | .event _ _ => false

/-- Whether an epoch begins or ends. -/
def turns : Entry → Bool
  | .event (.opened _ _ _) _ | .event .closed _ => true
  | _ => false

end Entry

/-- One epoch of a session. -/
structure Epoch where
  -- The number of its feed.
  number : Nat
  -- The stall threshold of its stream, in nanoseconds.
  limit : Nat
  isOpen : Bool
  -- What has been written down from its opening to its close.
  entries : List Entry

namespace Epoch

/-- The last epoch after one more entry. -/
def note : Option Epoch → Entry → Option Epoch
  | _, .event (.opened k _ _) limit => some ⟨k, limit, true, []⟩
  | some x, .event .closed _ => some { x with isOpen := false }
  | some x, e => some (if x.isOpen then { x with entries := x.entries ++ [e] } else x)
  | none, _ => none

/-- What the pulls that asked for something delivered. -/
def deliveries (x : Epoch) : List Nat := x.entries.filterMap (·.pulled? x.number)

def stalls (x : Epoch) : Nat := x.entries.countP (·.isStall x.number x.limit)

/-- The counters as the log has them. -/
def reading (x : Epoch) : Reading where
  pulls := .ofNat x.deliveries.length
  deliveredBytes := .ofNat x.deliveries.sum
  underruns := .ofNat (x.deliveries.count 0)
  stalls := .ofNat x.stalls

/-- The number and the stall threshold of the epoch, while it lasts. -/
def current? (x : Epoch) : Option (Nat × Nat) :=
  if x.isOpen then some (x.number, x.limit) else none

end Epoch

def lastEpoch (log : List Entry) : Option Epoch := log.foldl Epoch.note none

/-! ## 2. Entry by entry -/

/-- The counters after one more entry. -/
def Reading.add (k limit : Nat) (r : Reading) (e : Entry) : Reading where
  pulls := r.pulls + if (e.pulled? k).isSome then 1 else 0
  deliveredBytes := r.deliveredBytes + .ofNat ((e.pulled? k).getD 0)
  underruns := r.underruns + if e.pulled? k = some 0 then 1 else 0
  stalls := r.stalls + if e.isStall k limit then 1 else 0

/-- The counters of an epoch, and its number and stall threshold if it is the current one. -/
@[ext] structure Books where
  current : Option (Nat × Nat)
  reading : Reading

namespace Books

def blank : Books := ⟨none, .zero⟩

/-- The books after one more entry. -/
def note (b : Books) : Entry → Books
  | .event (.opened k _ _) limit => ⟨some (k, limit), .zero⟩
  | .event .closed _ => { b with current := none }
  | e =>
    match b.current with
    | some (k, limit) => { b with reading := b.reading.add k limit e }
    | none => b

/-- The books of the last epoch. -/
def ofEpoch : Option Epoch → Books
  | some x => ⟨x.current?, x.reading⟩
  | none => blank

variable {b : Books} {e : Entry} {es : List Entry} {k limit : Nat}

theorem note_of_closed (h : e.turns = false) (hb : b.current = none) : b.note e = b := by
  unfold note
  split
  next => cases h
  next => cases h
  next => rw [hb]

theorem note_of_open (h : e.turns = false) (hb : b.current = some (k, limit)) :
    b.note e = { b with reading := b.reading.add k limit e } := by
  unfold note
  split
  next => cases h
  next => cases h
  next => rw [hb]

theorem foldl_of_closed (h : ∀ e ∈ es, e.turns = false) (hb : b.current = none) :
    es.foldl note b = b := by
  induction es with
  | nil => rfl
  | cons e es ih =>
    have hfirst := note_of_closed (h e List.mem_cons_self) hb
    rw [List.foldl_cons, hfirst]
    exact ih fun e he => h e (List.mem_cons_of_mem _ he)

theorem foldl_of_open (h : ∀ e ∈ es, e.turns = false) (hb : b.current = some (k, limit)) :
    es.foldl note b = { b with reading := es.foldl (.add k limit) b.reading } := by
  induction es generalizing b with
  | nil => rfl
  | cons e es ih =>
    have hfirst := note_of_open (h e List.mem_cons_self) hb
    rw [List.foldl_cons, List.foldl_cons, hfirst]
    exact ih (fun e he => h e (List.mem_cons_of_mem _ he)) hb

end Books

/-! ## 3. The books of a log -/

namespace Epoch

variable {x : Epoch} {e : Entry}

theorem reading_concat (x : Epoch) (e : Entry) :
    { x with entries := x.entries ++ [e] }.reading = x.reading.add x.number x.limit e := by
  have hpulled : ({ x with entries := x.entries ++ [e] } : Epoch).deliveries =
      x.deliveries ++ (e.pulled? x.number).toList := by
    rw [deliveries, List.filterMap_append, List.filterMap_cons, List.filterMap_nil, deliveries]
    cases e.pulled? x.number <;> rfl
  have hstalls : ({ x with entries := x.entries ++ [e] } : Epoch).stalls =
      x.stalls + if e.isStall x.number x.limit then 1 else 0 := by
    rw [stalls, List.countP_append, List.countP_singleton, stalls]
  simp only [reading, Reading.add, hpulled, hstalls, List.length_append, List.sum_append,
    List.count_append, UInt64.ofNat_add]
  cases e.pulled? x.number with
  | none => cases e.isStall x.number x.limit <;> simp
  | some n => cases e.isStall x.number x.limit <;> by_cases hn : n = 0 <;> simp [hn]

end Epoch

theorem Books.ofEpoch_note (o : Option Epoch) (e : Entry) :
    ofEpoch (Epoch.note o e) = (ofEpoch o).note e := by
  unfold Epoch.note
  split
  next => rfl
  next x => rfl
  next x hopened hclosed =>
    have hturns : e.turns = false := by
      unfold Entry.turns
      split
      next k f w limit => exact absurd rfl (hopened k f w limit)
      next limit => exact absurd rfl (hclosed limit)
      next => rfl
    split
    next hx =>
      have hcurrent : (ofEpoch (some x)).current = some (x.number, x.limit) := if_pos hx
      rw [note_of_open hturns hcurrent]
      exact Books.ext rfl (x.reading_concat e)
    next hx =>
      have hcurrent : (ofEpoch (some x)).current = none := if_neg hx
      rw [note_of_closed hturns hcurrent]
  next hopened =>
    unfold note
    split
    next k f w limit => exact absurd rfl (hopened k f w limit)
    next => rfl
    next => rfl

theorem Books.foldl_note (log : List Entry) : log.foldl note blank = ofEpoch (lastEpoch log) := by
  suffices h : ∀ o, log.foldl note (ofEpoch o) = ofEpoch (log.foldl Epoch.note o) from h none
  induction log with
  | nil => exact fun o => rfl
  | cons e log ih =>
    intro o
    rw [List.foldl_cons, List.foldl_cons, ← ofEpoch_note]
    exact ih _

end Playout

import Playout.Proofs.Playback

/-!
# The ledger of a feed

Read off the events alone: what the producer has handed over to a feed, and what a device has got
out of it.  A buffer enters the ledger as the producer wrote it: what the first `borrow` since the
last commit handed out, with all edits since then applied, and mono duplicated if the stream does
that.
-/

namespace Playout

/-- A pull that got committed audio. -/
@[ext] structure Delivery where
  requested : Nat
  data : Bytes
  delivered : Nat
deriving DecidableEq, Repr

/-- The delivery that a step of a device was, if it was one.  Reading a held pull again is none. -/
def Delivery.of? : ConsumerStep → ConsumerReply → Option Delivery
  | .pull n, .audio data delivered _ => if delivered = 0 then none else some ⟨n, data, delivered⟩
  | .hold n _, .audio data delivered _ => if delivered = 0 then none else some ⟨n, data, delivered⟩
  | _, _ => none

@[simp] theorem Delivery.of?_nothing (c : ConsumerStep) : Delivery.of? c .nothing = none := by
  cases c <;> rfl

@[simp] theorem Delivery.of?_peek (name : String) (r : ConsumerReply) :
    Delivery.of? (.peek name) r = none := rfl

@[simp] theorem Delivery.of?_drop (name : String) (r : ConsumerReply) :
    Delivery.of? (.drop name) r = none := rfl

-- A pull that is held counts as one that is not.
theorem Delivery.of?_hold (n : Nat) (name : String) (r : ConsumerReply) :
    Delivery.of? (.hold n name) r = Delivery.of? (.pull n) r := by
  cases r <;> rfl

/-- What has gone into a feed and come out of it. -/
@[ext] structure Ledger where
  -- The width of the samples that are duplicated, if any are.
  doubled : Option Nat
  -- What the producer is writing, from the first borrow to the commit.
  draft : Option Bytes
  -- The buffers handed over, in order.
  handed : List Bytes
  -- How many of these commits have returned.
  returned : Nat
  -- The buffers whose commit was refused, in order.
  refused : List Bytes
  -- What the devices got, in order.
  taken : List Delivery
deriving DecidableEq, Repr

namespace Ledger

def blank : Ledger := ⟨none, none, [], 0, [], []⟩

def fresh (doubled : Option Nat) : Ledger := { blank with doubled }

/-- The buffer that a commit would hand over now. -/
def page (l : Ledger) : Bytes :=
  let written := l.draft.getD #[]
  match l.doubled with
  | none => written
  | some width => written.duplicate width

/-! ## 1. Entries -/

/-- The producer was handed these bytes to write on.  A draft that it has begun stays as it is. -/
def borrow (l : Ledger) (bytes : Bytes) : Ledger :=
  { l with draft := some (l.draft.getD bytes) }

def write (l : Ledger) (edits : List Edit) : Ledger :=
  { l with draft := l.draft.map (Edit.applyAll edits) }

/-- The buffer was handed over. -/
def handOver (l : Ledger) : Ledger := { l with handed := l.handed ++ [l.page], draft := none }

def settle (l : Ledger) : Ledger := { l with returned := l.returned + 1 }

/-- The commit was refused. -/
def refuse (l : Ledger) : Ledger := { l with refused := l.refused ++ [l.page], draft := none }

/-- A device got audio, or did not. -/
def take (l : Ledger) : Option Delivery → Ledger
  | none => l
  | some d => { l with taken := l.taken ++ [d] }

/-- A call of the producer was answered. -/
def answer (l : Ledger) : Call → Answer → Ledger
  | .borrow, .buffer bytes => l.borrow bytes
  | .commit, .done => l.handOver.settle
  | .commit, .refused _ => l.refuse
  | _, _ => l

/-- The ledger of feed `k` after an event. -/
def note (k : Nat) (l : Ledger) : Event → Ledger
  | .device j c r => if j = k then l.take (Delivery.of? c r) else l
  | .opened j f widens =>
    if j = k then fresh (if widens then some (f.encoding.bits / 8) else none) else l
  | .answered j c _ a => if j = k then l.answer c a else l
  | .handedOver j => if j = k then l.handOver else l
  | .launched j _ => if j = k then l.settle else l
  | .wrote j edits => if j = k then l.write edits else l
  | .notOpened _ | .skipped _ | .paused | .resumed _ | .closed | .fault _ => l

end Ledger

/-- The feed that an event is about. -/
def Event.feed? : Event → Option Nat
  | .device j _ _ | .opened j _ _ | .answered j _ _ _ | .handedOver j | .launched j _
  | .wrote j _ => some j
  | .notOpened _ | .skipped _ | .paused | .resumed _ | .closed | .fault _ => none

/-- The ledger of feed `k` after these events. -/
def ledger (k : Nat) (events : List Event) : Ledger := events.foldl (Ledger.note k) .blank

theorem ledger_append (k : Nat) (tr es : List Event) :
    ledger k (tr ++ es) = es.foldl (Ledger.note k) (ledger k tr) :=
  List.foldl_append

theorem ledger_concat (k : Nat) (tr : List Event) (e : Event) :
    ledger k (tr ++ [e]) = (ledger k tr).note k e :=
  ledger_append k tr [e]

-- An event is noted in one ledger only.
theorem ledger_of_ne {j k : Nat} {e : Event} (he : e.feed? = some j) (hk : k ≠ j)
    (tr : List Event) : ledger k (tr ++ [e]) = ledger k tr := by
  rw [ledger_concat]
  cases e <;> cases he <;> exact if_neg (Ne.symm hk)

theorem ledger_append_nil (k : Nat) (tr : List Event) : ledger k (tr ++ []) = ledger k tr := by
  rw [List.append_nil]

namespace Ledger

/-! ## 2. Questions -/

/-- The last buffer that a device took. -/
def played (l : Ledger) : Option Bytes := (l.handed.take l.taken.length).getLast?

/-- What the slot of the last claim holds as long as nobody fills it: the last buffer that a device
took, and before the first one the last buffer whose commit was refused. -/
def echo (l : Ledger) (bytes : Nat) : Bytes :=
  l.played.getD (l.refused.getLast?.getD (.zeros bytes))

theorem played_of_handed_eq_nil {l : Ledger} (h : l.handed = []) : l.played = none := by
  rw [played, h, List.take_nil, List.getLast?_nil]

-- Taking the next buffer makes it the one played last.
theorem played_take {l : Ledger} {b : Bytes} (h : l.handed[l.taken.length]? = some b)
    (d : Delivery) : (l.take (some d)).played = some b := by
  show (l.handed.take (l.taken ++ [d]).length).getLast? = some b
  rw [List.length_append, List.length_singleton, List.take_add_one, h]
  simp

-- A hand-over is not heard before it is taken.
theorem echo_handOver {l : Ledger} (h : l.taken.length ≤ l.handed.length) (bytes : Nat) :
    l.handOver.echo bytes = l.echo bytes := by
  have hplayed : l.handOver.played = l.played := by
    show ((l.handed ++ [l.page]).take l.taken.length).getLast? = _
    rw [List.take_append_of_le_length h, played]
  rw [echo, hplayed]
  rfl

-- Before the first hand-over, a refused page is what is left behind.
theorem echo_refuse {l : Ledger} (h : l.handed = []) (bytes : Nat) :
    l.refuse.echo bytes = l.page := by
  have hplayed : l.refuse.played = none := played_of_handed_eq_nil h
  have hlast : l.refuse.refused.getLast? = some l.page := List.getLast?_concat
  rw [echo, hplayed, hlast]
  rfl

end Ledger

end Playout

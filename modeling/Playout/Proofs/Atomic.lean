import Playout.Settings
import Playout.Proofs.Handshake

/-!
# The handshake, one access at a time

In a program the slots are atomic variables, and so are the two places that the sides remember.
Here both sides go through their calls one access after the other: a load, a store, a swap, or a
compare and exchange of a single variable.  Anything may happen in between.

Each access either is invisible or is one whole step of the `Handshake`: it is at the exchange that
a slot changes hands, and the stores that follow it are as good as done (`State.view`).
-/

namespace Playout

namespace Atomic

/-! ## 1. The two sides -/

/-- What the producer does next. -/
inductive ProducerPoint where
  -- It begins a call.
  | idle
  -- To borrow, it reads which slot is active,
  | borrow
  -- and tries to take that slot.
  | borrowAt (s : Slot)
  -- Where it has to wait, it reads which slot is active,
  | await
  -- and whether that slot can be taken by now.
  | awaitAt (s : Slot)
  -- To commit, it reads which slot is active,
  | commit
  -- and whether that slot is being filled.
  | commitAt (s : Slot)
  -- Then it reads which slot is active,
  | sibling
  -- and the state of the other one, until that one does not wait.
  | siblingAt (s : Slot)
  -- It reads once more which slot is active,
  | handOver
  -- hands that slot over,
  | handOverAt (s : Slot)
  -- and turns to the other one.
  | turn (s : Slot)
deriving DecidableEq, Repr

/-- What the consumer does next. -/
inductive ConsumerPoint where
  -- It begins to pull.
  | idle
  -- It tries to claim this slot, and failing that the one after it,
  | claimAt (s : Slot)
  -- and remembers which one it has claimed.
  | remember (s : Slot)
  -- Where nothing waited, it reads which slot it claimed last,
  | reclaim
  -- and tries to claim it once more.
  | reclaimAt (s : Slot)
deriving DecidableEq, Repr

/-- The shared variables, and where both sides are. -/
structure State where
  shared : Handshake
  fallback : Fallback
  producer : ProducerPoint
  consumer : ConsumerPoint
  -- The slot that the producer has taken and not handed over.
  lent : Option Slot
  -- The slots that the consumer has claimed and not given back.
  held : List Slot
deriving DecidableEq, Repr

/-- What an access has brought about. -/
inductive Milestone where
  -- The producer has begun to fill a slot.
  | begun (s : Slot)
  | handedOver (s : Slot)
  | claimed (s : Slot)
  -- The slot of the last claim has been claimed once more.
  | reclaimed (s : Slot)
  | givenBack (s : Slot)
deriving DecidableEq, Repr

/-- What can happen next. -/
inductive Tick where
  -- The producer begins a call.
  | borrow
  | commit
  -- The next access of the producer.
  | produce
  -- The producer reads again what it waits for, whatever it has read.
  | again
  -- The consumer begins to pull.
  | pull
  -- The next access of the consumer.
  | consume
  -- A pull is dropped, and its slot swapped for an empty one.
  | drop (s : Slot)
deriving DecidableEq, Repr

/-- The slot that the producer is about to make the active one. -/
def ProducerPoint.turning : ProducerPoint → Option Slot
  | .turn s => some s.other
  | _ => none

/-- The slot that the consumer is about to remember. -/
def ConsumerPoint.remembering : ConsumerPoint → Option Slot
  | .remember s => some s
  | _ => none

namespace State

def start (double : Bool) (fallback : Fallback) : State :=
  ⟨.initial double, fallback, .idle, .idle, none, []⟩

/-! ## 2. Accesses -/

/-- The next access of the producer. -/
def produce (m : State) : Option Milestone × State :=
  match m.producer with
  | .idle => (none, m)
  | .borrow => (none, { m with producer := .borrowAt m.shared.active })
  | .borrowAt s =>
    match (m.shared.state s).exchange .empty .filling with
    | .ok x =>
      (some (.begun s),
        { m with shared := m.shared.setState s x, lent := some s, producer := .idle })
    | .error .filling => (none, { m with producer := .idle })
    | .error _ => (none, { m with producer := .await })
  | .await => (none, { m with producer := .awaitAt m.shared.active })
  | .awaitAt s =>
    (none, { m with producer := if (m.shared.state s).isFillable then .borrow else .await })
  | .commit => (none, { m with producer := .commitAt m.shared.active })
  | .commitAt s =>
    -- without a slot of its own the call is a mistake, and over
    (none, { m with producer := if m.shared.state s = .filling then .sibling else .idle })
  | .sibling =>
    (none, { m with
      producer := if m.shared.double then .siblingAt m.shared.active else .handOver })
  | .siblingAt s =>
    (none, { m with
      producer := if m.shared.state s.other = .ready then .sibling else .handOver })
  | .handOver => (none, { m with producer := .handOverAt m.shared.active })
  | .handOverAt s =>
    match (m.shared.state s).exchange .filling .ready with
    | .ok x =>
      (some (.handedOver s),
        { m with
          shared := m.shared.setState s x
          lent := none
          producer := if m.shared.double then .turn s else .idle })
    | .error _ => (none, { m with producer := .idle })
  | .turn s => (none, { m with shared := { m.shared with active := s.other }, producer := .idle })

/-- The producer reads again what it waits for. -/
def again (m : State) : State :=
  match m.producer with
  | .awaitAt _ => { m with producer := .await }
  | .siblingAt _ => { m with producer := .sibling }
  | _ => m

/-- Where the consumer goes on when it has found nothing at a slot. -/
def afterScan (m : State) (s : Slot) : ConsumerPoint :=
  if s = .a ∧ m.shared.double = true then .claimAt .b
  else match m.fallback with
    | .replay => .reclaim
    | .silence => .idle

/-- The next access of the consumer. -/
def consume (m : State) : Option Milestone × State :=
  match m.consumer with
  | .idle => (none, m)
  | .claimAt s =>
    match (m.shared.state s).exchange .ready .consumed with
    | .ok x =>
      (some (.claimed s),
        { m with
          shared := m.shared.setState s x
          held := s :: m.held
          consumer := .remember s })
    | .error _ => (none, { m with consumer := m.afterScan s })
  | .remember s => (none, { m with shared := { m.shared with last := s }, consumer := .idle })
  | .reclaim => (none, { m with consumer := .reclaimAt m.shared.last })
  | .reclaimAt s =>
    match (m.shared.state s).exchange .empty .consumed with
    | .ok x =>
      (some (.reclaimed s),
        { m with shared := m.shared.setState s x, held := s :: m.held, consumer := .idle })
    | .error _ => (none, { m with consumer := .idle })

/-- Drops a pull of that slot, if there is one. -/
def drop (m : State) (s : Slot) : Option Milestone × State :=
  if s ∈ m.held then
    (some (.givenBack s),
      { m with shared := m.shared.setState s .empty, held := m.held.erase s })
  else (none, m)

def step (m : State) : Tick → Option Milestone × State
  | .borrow => (none, if m.producer = .idle then { m with producer := .borrow } else m)
  | .commit => (none, if m.producer = .idle then { m with producer := .commit } else m)
  | .produce => m.produce
  | .again => (none, m.again)
  | .pull => (none, if m.consumer = .idle then { m with consumer := .claimAt .a } else m)
  | .consume => m.consume
  | .drop s => m.drop s

/-- One tick after the other, with everything that has been brought about. -/
def run (m : State) : List Tick → List Milestone × State
  | [] => ([], m)
  | t :: rest =>
    ((m.step t).1.toList ++ ((m.step t).2.run rest).1, ((m.step t).2.run rest).2)

/-! ## 3. The handshake that the accesses make -/

/-- The handshake as it is when both sides have stored what they are about to store. -/
def view (m : State) : Handshake where
  double := m.shared.double
  states := m.shared.states
  active := m.producer.turning.getD m.shared.active
  last := m.consumer.remembering.getD m.shared.last

end State

/-- What an access is to the handshake: nothing, or one of its steps. -/
inductive Makes (h : Handshake) : Option Milestone → Handshake → Prop where
  | nothing : Makes h none h
  | begun {s : Slot} {h' : Handshake} (e : h.startFilling = .ok (s, h')) :
      Makes h (some (.begun s)) h'
  | handedOver {s : Slot} {h' : Handshake} (e : h.handOver = .ok (s, h')) :
      Makes h (some (.handedOver s)) h'
  | claimed {s : Slot} {h' : Handshake} (e : h.claimReady = some (s, h')) :
      Makes h (some (.claimed s)) h'
  | reclaimed {s : Slot} {h' : Handshake} (e : h.reclaim = some (s, h')) :
      Makes h (some (.reclaimed s)) h'
  | givenBack {s : Slot} (hs : h.state s = .consumed) :
      Makes h (some (.givenBack s)) (h.giveBack s)

/-! ## 4. Who has which slot -/

/-- What the producer knows where it is. -/
def ProducerPoint.Knows (h : Handshake) : ProducerPoint → Prop
  | .idle | .borrow | .await | .commit => True
  | .borrowAt s | .awaitAt s | .commitAt s => s = h.active
  | .sibling => h.state h.active = .filling
  | .siblingAt s => s = h.active ∧ h.state h.active = .filling
  | .handOver => h.state h.active = .filling ∧ h.siblingReady = false
  | .handOverAt s => s = h.active ∧ h.state h.active = .filling ∧ h.siblingReady = false
  | .turn _ => h.double = true

/-- What the consumer knows where it is. -/
def ConsumerPoint.Knows (h : Handshake) : ConsumerPoint → Prop
  | .idle | .reclaim => True
  | .claimAt s => s ∈ h.members
  | .remember s => s = h.last
  | .reclaimAt s => s = h.last

/-- The slots are where the producer and the consumer have them. -/
structure Owned (h : Handshake) (lent : Option Slot) (held : List Slot) : Prop where
  tidy : h.Tidy
  filling : ∀ s, h.state s = .filling ↔ lent = some s
  consumed : ∀ s, h.state s = .consumed ↔ s ∈ held
  once : held.Nodup

structure State.Inv (m : State) : Prop where
  owned : Owned m.view m.lent m.held
  producer : m.producer.Knows m.view
  consumer : m.consumer.Knows m.view

namespace Owned

variable {h : Handshake} {lent : Option Slot} {held : List Slot} {s : Slot}

theorem initial (double : Bool) : Owned (.initial double) none [] where
  tidy := .initial double
  filling s := by simp
  consumed s := by simp
  once := List.nodup_nil

theorem setFilling (ho : Owned h lent held) (hempty : h.state h.active = .empty) :
    Owned (h.setState h.active .filling) (some h.active) held where
  tidy := ho.tidy.setFilling
  filling s := by
    rw [Handshake.state_setState, Option.some_inj]
    split
    next heq => simp [heq]
    next hne =>
      -- no other slot was being filled
      refine ⟨fun hs => absurd (ho.tidy.filling_active s hs) hne, fun heq => absurd heq.symm hne⟩
  consumed s := by
    rw [Handshake.state_setState, ← ho.consumed]
    split
    next heq => simp [heq, hempty]
    next => rfl
  once := ho.once

theorem handed (ho : Owned h lent held) (hfilling : h.state h.active = .filling)
    (hsibling : h.siblingReady = false) : Owned h.handed none held where
  tidy := ho.tidy.handed hsibling
  filling s := by
    rw [Handshake.state_handed]
    split
    next => simp
    next hne => simpa using fun hs => hne (ho.tidy.filling_active s hs)
  consumed s := by
    rw [Handshake.state_handed, ← ho.consumed]
    split
    next heq => simp [heq, hfilling]
    next => rfl
  once := ho.once

theorem claimed (ho : Owned h lent held) (hs : s ∈ h.members) (hfilling : h.state s ≠ .filling)
    (hconsumed : h.state s ≠ .consumed) : Owned (h.claimed s) lent (s :: held) where
  tidy := ho.tidy.claimed hs
  filling t := by
    rw [Handshake.state_claimed, ← ho.filling]
    split
    next heq => simp [heq, hfilling]
    next => rfl
  consumed t := by
    rw [Handshake.state_claimed, List.mem_cons, ← ho.consumed]
    split
    next heq => simp [heq]
    next hne => simp [hne]
  once := List.nodup_cons.mpr ⟨fun hmem => hconsumed ((ho.consumed s).mpr hmem), ho.once⟩

theorem giveBack (ho : Owned h lent held) (hs : s ∈ held) :
    Owned (h.giveBack s) lent (held.erase s) where
  tidy := ho.tidy.giveBack s
  filling t := by
    rw [Handshake.state_giveBack, ← ho.filling]
    split
    next heq => simp [heq, (ho.consumed s).mpr hs]
    next => rfl
  consumed t := by
    rw [Handshake.state_giveBack, ho.once.mem_erase_iff, ← ho.consumed]
    split
    next heq => simp [heq]
    next hne => simp [hne]
  once := ho.once.erase s

end Owned

/-! ## 5. Every access -/

-- What the producer knows is its own doing: the consumer cannot undo it.
theorem ProducerPoint.Knows.touched {h h' : Handshake} {q : ProducerPoint} (hq : q.Knows h)
    (ht : h.Touched h') : q.Knows h' := by
  have hactive := ht.active
  cases q with
  | idle | borrow | await | commit => trivial
  | borrowAt s | awaitAt s | commitAt s => exact hq.trans hactive.symm
  | sibling =>
    show h'.state h'.active = .filling
    rw [hactive]
    exact ht.filling hq
  | siblingAt s =>
    refine ⟨hq.1.trans hactive.symm, ?_⟩
    rw [hactive]
    exact ht.filling hq.2
  | handOver =>
    refine ⟨?_, ht.siblingReady hq.2⟩
    rw [hactive]
    exact ht.filling hq.1
  | handOverAt s =>
    refine ⟨hq.1.trans hactive.symm, ?_, ht.siblingReady hq.2.2⟩
    rw [hactive]
    exact ht.filling hq.2.1
  | turn s => exact ht.double.trans hq

-- Nor does the producer touch what the consumer remembers.
theorem ConsumerPoint.Knows.of_last {h h' : Handshake} {q : ConsumerPoint} (hq : q.Knows h)
    (hdouble : h'.double = h.double) (hlast : h'.last = h.last) : q.Knows h' := by
  cases q with
  | idle | reclaim => trivial
  | claimAt s =>
    show s ∈ h'.members
    rw [Handshake.mem_members, hdouble, ← Handshake.mem_members]
    exact hq
  | remember s | reclaimAt s => exact hq.trans hlast.symm

/-- An access is at most one step of the handshake, and leaves the slots where they belong. -/
structure Goes (m : State) (r : Option Milestone × State) : Prop where
  makes : Makes m.view r.1 r.2.view
  inv : r.2.Inv

theorem Goes.of_view {m m' : State} {o : Option Milestone} {h : Handshake} (hview : m'.view = h)
    (hmakes : Makes m.view o h) (howned : Owned h m'.lent m'.held)
    (hproducer : m'.producer.Knows h) (hconsumer : m'.consumer.Knows h) : Goes m (o, m') := by
  subst hview
  exact ⟨hmakes, howned, hproducer, hconsumer⟩

namespace State.Inv

variable {m : State} {s : Slot}

theorem rest (hm : m.Inv) : Goes m (none, m) := ⟨.nothing, hm⟩

-- The producer has only read.
theorem moveProducer (hm : m.Inv) {q : ProducerPoint} (hp : m.producer.turning = none)
    (hq : q.turning = none) (hknows : q.Knows m.view) : Goes m (none, { m with producer := q }) :=
  .of_view (by simp [view, hp, hq]) .nothing hm.owned hknows hm.consumer

theorem moveConsumer (hm : m.Inv) {q : ConsumerPoint} (hc : m.consumer.remembering = none)
    (hq : q.remembering = none) (hknows : q.Knows m.view) :
    Goes m (none, { m with consumer := q }) :=
  .of_view (by simp [view, hc, hq]) .nothing hm.owned hm.producer hknows

-- What the producer reads in the variable is what the view says.
theorem active_eq (hp : m.producer.turning = none) : m.shared.active = m.view.active := by
  rw [view, hp]
  rfl

theorem last_eq (hc : m.consumer.remembering = none) : m.shared.last = m.view.last := by
  rw [view, hc]
  rfl

/-- To take a slot is to start filling it. -/
theorem borrowAt (hm : m.Inv) (hpoint : m.producer = .borrowAt s) : Goes m m.produce := by
  have hp : m.producer.turning = none := by rw [hpoint]; rfl
  have hs := hm.producer
  rw [hpoint] at hs
  obtain rfl : s = m.view.active := hs
  unfold State.produce
  simp only [hpoint, SlotState.exchange]
  cases hx : m.shared.state m.view.active with
  | empty =>
    have hview : State.view { m with
        shared := m.shared.setState m.view.active .filling
        lent := some m.view.active
        producer := .idle } = m.view.setState m.view.active .filling := by
      rw [← active_eq hp]
      simp only [view, hp]
      rfl
    exact .of_view hview (.begun (Handshake.startFilling_of_empty hx)) (hm.owned.setFilling hx)
      trivial (hm.consumer.of_last rfl rfl)
  | filling => exact hm.moveProducer hp rfl trivial
  | ready => exact hm.moveProducer hp rfl trivial
  | consumed => exact hm.moveProducer hp rfl trivial

/-- The exchange hands the slot over, and turning to the other one is as good as done. -/
theorem handOverAt (hm : m.Inv) (hpoint : m.producer = .handOverAt s) : Goes m m.produce := by
  have hp : m.producer.turning = none := by rw [hpoint]; rfl
  have hs := hm.producer
  rw [hpoint] at hs
  obtain ⟨rfl, hfilling, hsibling⟩ := hs
  replace hfilling : m.shared.state m.view.active = .filling := hfilling
  unfold State.produce
  simp only [hpoint, SlotState.exchange, hfilling, if_true]
  have hview : State.view { m with
      shared := m.shared.setState m.view.active .ready
      lent := none
      producer := if m.shared.double then .turn m.view.active else .idle } = m.view.handed := by
    refine Handshake.ext ?_ ?_ ?_ ?_
    · exact (Handshake.double_handed m.view).symm
    · exact (Handshake.states_handed _).symm
    · have hd : m.view.double = m.shared.double := rfl
      rw [Handshake.active_handed, hd]
      show (if m.shared.double then ProducerPoint.turn m.view.active else .idle).turning.getD
        m.shared.active = _
      cases m.shared.double with
      | true => rfl
      | false => exact active_eq hp
    · exact (Handshake.last_handed m.view).symm
  refine .of_view hview (.handedOver (Handshake.handOver_of_filling hfilling))
    (hm.owned.handed hfilling hsibling) ?_ (hm.consumer.of_last ?_ ?_)
  · split
    next hd => exact (Handshake.double_handed _).trans hd
    next => trivial
  · exact Handshake.double_handed _
  · exact Handshake.last_handed _

theorem turn (hm : m.Inv) (hpoint : m.producer = .turn s) : Goes m m.produce := by
  unfold State.produce
  simp only [hpoint]
  have hview : State.view { m with
      shared := { m.shared with active := s.other }, producer := .idle } = m.view := by
    simp only [view, hpoint]
    rfl
  exact .of_view hview .nothing hm.owned trivial hm.consumer

/-- Everything else that the producer does is to read. -/
theorem produce (hm : m.Inv) : Goes m m.produce := by
  have hknows := hm.producer
  cases hpoint : m.producer with
  | borrowAt s => exact hm.borrowAt hpoint
  | handOverAt s => exact hm.handOverAt hpoint
  | turn s => exact hm.turn hpoint
  | idle =>
    unfold State.produce
    simp only [hpoint]
    exact hm.rest
  | borrow | await | commit =>
    have hp : m.producer.turning = none := by rw [hpoint]; rfl
    unfold State.produce
    simp only [hpoint]
    exact hm.moveProducer hp rfl (active_eq hp)
  | awaitAt s =>
    have hp : m.producer.turning = none := by rw [hpoint]; rfl
    unfold State.produce
    simp only [hpoint]
    split <;> exact hm.moveProducer hp rfl trivial
  | commitAt s =>
    have hp : m.producer.turning = none := by rw [hpoint]; rfl
    rw [hpoint] at hknows
    obtain rfl : s = m.view.active := hknows
    unfold State.produce
    simp only [hpoint]
    split
    next hfilling => exact hm.moveProducer hp rfl hfilling
    next => exact hm.moveProducer hp rfl trivial
  | sibling =>
    have hp : m.producer.turning = none := by rw [hpoint]; rfl
    rw [hpoint] at hknows
    unfold State.produce
    simp only [hpoint]
    split
    next => exact hm.moveProducer hp rfl ⟨active_eq hp, hknows⟩
    next hd =>
      -- a single slot is never beside itself
      have hsibling : m.view.siblingReady = false := by
        simpa [Handshake.siblingReady, view] using fun hd' => absurd hd' hd
      exact hm.moveProducer hp rfl ⟨hknows, hsibling⟩
  | siblingAt s =>
    have hp : m.producer.turning = none := by rw [hpoint]; rfl
    rw [hpoint] at hknows
    obtain ⟨rfl, hfilling⟩ := hknows
    unfold State.produce
    simp only [hpoint]
    split
    next => exact hm.moveProducer hp rfl hfilling
    next hother =>
      replace hother : ¬m.view.state m.view.active.other = .ready := hother
      have hsibling : m.view.siblingReady = false := by
        rw [Handshake.siblingReady, decide_eq_false hother, Bool.and_false]
      exact hm.moveProducer hp rfl ⟨hfilling, hsibling⟩
  | handOver =>
    have hp : m.producer.turning = none := by rw [hpoint]; rfl
    rw [hpoint] at hknows
    unfold State.produce
    simp only [hpoint]
    exact hm.moveProducer hp rfl ⟨active_eq hp, hknows⟩

theorem again (hm : m.Inv) : Goes m (none, m.again) := by
  have hknows := hm.producer
  unfold State.again
  split
  next s hpoint => exact hm.moveProducer (by rw [hpoint]; rfl) rfl trivial
  next s hpoint =>
    rw [hpoint] at hknows
    obtain ⟨rfl, hfilling⟩ := hknows
    exact hm.moveProducer (by rw [hpoint]; rfl) rfl hfilling
  next => exact hm.rest

/-- To claim a waiting slot is to claim the one that waits. -/
theorem claimAt (hm : m.Inv) (hpoint : m.consumer = .claimAt s) : Goes m m.consume := by
  have hc : m.consumer.remembering = none := by rw [hpoint]; rfl
  have hmem := hm.consumer
  rw [hpoint] at hmem
  replace hmem : s ∈ m.view.members := hmem
  unfold State.consume
  simp only [hpoint, SlotState.exchange]
  split
  next hready =>
    split at hready
    next hs =>
      cases hready
      replace hs : m.view.state s = .ready := hs
      have htouched : m.view.Touched (m.view.claimed s) := .claim .rest s hmem hs
      refine .of_view (h := m.view.claimed s) rfl
        (.claimed (hm.owned.tidy.claimReady_of_ready hs)) ?_ (hm.producer.touched htouched) rfl
      exact hm.owned.claimed hmem (by rw [hs]; decide) (by rw [hs]; decide)
    next => cases hready
  next =>
    refine hm.moveConsumer hc ?_ ?_
    · unfold afterScan
      split
      · rfl
      · split <;> rfl
    · unfold afterScan
      split
      next hd => exact Handshake.mem_members.mpr (.inr hd.2)
      next => split <;> trivial

theorem reclaimAt (hm : m.Inv) (hpoint : m.consumer = .reclaimAt s) : Goes m m.consume := by
  have hc : m.consumer.remembering = none := by rw [hpoint]; rfl
  have hs := hm.consumer
  rw [hpoint] at hs
  obtain rfl : s = m.view.last := hs
  unfold State.consume
  simp only [hpoint, SlotState.exchange]
  split
  next hempty =>
    split at hempty
    next hs =>
      cases hempty
      replace hs : m.view.state m.view.last = .empty := hs
      have htouched : m.view.Touched (m.view.claimed m.view.last) := .reclaim .rest hs
      have hview : State.view { m with
          shared := m.shared.setState m.view.last .consumed
          held := m.view.last :: m.held
          consumer := .idle } = m.view.claimed m.view.last := by
        rw [← last_eq hc]
        rfl
      refine .of_view hview (.reclaimed (Handshake.reclaim_of_empty hs)) ?_
        (hm.producer.touched htouched) trivial
      exact hm.owned.claimed hm.owned.tidy.last_mem (by rw [hs]; decide) (by rw [hs]; decide)
    next => cases hempty
  next => exact hm.moveConsumer hc rfl trivial

theorem consume (hm : m.Inv) : Goes m m.consume := by
  cases hpoint : m.consumer with
  | claimAt s => exact hm.claimAt hpoint
  | reclaimAt s => exact hm.reclaimAt hpoint
  | idle =>
    unfold State.consume
    simp only [hpoint]
    exact hm.rest
  | reclaim =>
    have hc : m.consumer.remembering = none := by rw [hpoint]; rfl
    unfold State.consume
    simp only [hpoint]
    exact hm.moveConsumer hc rfl (last_eq hc)
  | remember s =>
    unfold State.consume
    simp only [hpoint]
    have hview : State.view { m with
        shared := { m.shared with last := s }, consumer := .idle } = m.view := by
      simp only [view, hpoint]
      rfl
    exact .of_view hview .nothing hm.owned hm.producer trivial

theorem drop (hm : m.Inv) (s : Slot) : Goes m (m.drop s) := by
  unfold State.drop
  split
  next hs =>
    have hconsumed := (hm.owned.consumed s).mpr hs
    have htouched : m.view.Touched (m.view.giveBack s) := .giveBack .rest s hconsumed
    exact .of_view rfl (.givenBack hconsumed) (hm.owned.giveBack hs)
      (hm.producer.touched htouched) (hm.consumer.of_last rfl rfl)
  next => exact hm.rest

theorem step (hm : m.Inv) (t : Tick) : Goes m (m.step t) := by
  cases t with
  | borrow | commit =>
    unfold State.step
    simp only
    split
    next hidle => exact hm.moveProducer (by rw [hidle]; rfl) rfl trivial
    next => exact hm.rest
  | produce => exact hm.produce
  | again => exact hm.again
  | pull =>
    unfold State.step
    simp only
    split
    next hidle =>
      exact hm.moveConsumer (by rw [hidle]; rfl) rfl (Handshake.mem_members.mpr (.inl rfl))
    next => exact hm.rest
  | consume => exact hm.consume
  | drop s => exact hm.drop s

end State.Inv

theorem State.inv_start (double : Bool) (fallback : Fallback) : (start double fallback).Inv where
  owned := .initial double
  producer := trivial
  consumer := trivial

end Atomic

end Playout

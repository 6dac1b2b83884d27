import Playout.Proofs.Notes

/-!
# The cycle of the slots

A slot is filled, handed over, claimed and given back.  Here nobody keeps to any discipline: the
operations come in any order, a slot is handed over while the other one waits, the active one is
claimed once more, and at any moment everything is forgotten.

`Outcome` lists what an operation can do.  That no slot leaves the cycle, and what becomes of the two
places that the sides remember, is read off that list.
-/

namespace Playout

namespace Handshake

/-! ## 1. Operations -/

/-- An operation on a handshake. -/
inductive Use where
  | startFilling
  | handOver
  | claimReady
  | reclaim
  | giveBack (s : Slot)
  -- Forgets everything.
  | clear
deriving DecidableEq, Repr

/-- What an operation answers. -/
inductive Reply where
  -- The slot that it has taken or handed over.
  | slot (s : Slot)
  -- The state that the active slot was found in.
  | stopped (x : SlotState)
  -- There was nothing to claim.
  | nothing
  | done
deriving DecidableEq, Repr

def Reply.isFailure : Reply → Bool
  | .stopped _ | .nothing => true
  | .slot _ | .done => false

/-- What an operation answers, and the handshake after it. -/
def perform (h : Handshake) : Use → Reply × Handshake
  | .startFilling =>
    match h.startFilling with
    | .ok (s, h') => (.slot s, h')
    | .error x => (.stopped x, h)
  | .handOver =>
    match h.handOver with
    | .ok (s, h') => (.slot s, h')
    | .error x => (.stopped x, h)
  | .claimReady =>
    match h.claimReady with
    | some (s, h') => (.slot s, h')
    | none => (.nothing, h)
  | .reclaim =>
    match h.reclaim with
    | some (s, h') => (.slot s, h')
    | none => (.nothing, h)
  | .giveBack s => (.done, h.giveBack s)
  | .clear => (.done, h.cleared)

/-- Only a slot that is being read may be given back. -/
def Allows (h : Handshake) : Use → Prop
  | .giveBack s => h.state s = .consumed
  | .startFilling | .handOver | .claimReady | .reclaim | .clear => True

/-- The handshake after one operation after the other. -/
def after (h : Handshake) : List Use → Handshake
  | [] => h
  | u :: rest => (h.perform u).2.after rest

instance (h : Handshake) (u : Use) : Decidable (h.Allows u) :=
  match u with
  | .giveBack s => inferInstanceAs (Decidable (h.state s = .consumed))
  | .startFilling | .handOver | .claimReady | .reclaim | .clear => isTrue trivial

/-! ## 2. The same, one access after the other -/

/-- Compares a slot's state with the expected one and exchanges it if it is the same. -/
def exchangeAt (s : Slot) (expected next : SlotState) :
    StateM Handshake (Except SlotState Unit) := do
  match ((← get).state s).exchange expected next with
  | .ok x =>
    modify (·.setState s x)
    return .ok ()
  | .error x => return .error x

def storeActive (s : Slot) : StateM Handshake Unit := modify fun h => { h with active := s }

def storeLast (s : Slot) : StateM Handshake Unit := modify fun h => { h with last := s }

/-- Tries to claim these slots in their order. -/
def claimFrom : List Slot → StateM Handshake Reply
  | [] => return .nothing
  | s :: rest => do
    match ← exchangeAt s .ready .consumed with
    | .ok () =>
      storeLast s
      return .slot s
    | .error _ => claimFrom rest

/-- An operation as its loads, stores, swaps and exchanges.  What has been stored before one of them
fails stays stored. -/
def Use.accesses : Use → StateM Handshake Reply
  | .startFilling => do
    let s := (← get).active
    match ← exchangeAt s .empty .filling with
    | .ok () | .error .filling => return .slot s
    | .error x => return .stopped x
  | .handOver => do
    let s := (← get).active
    match ← exchangeAt s .filling .ready with
    | .ok () =>
      if (← get).double then storeActive s.other
      return .slot s
    | .error x => return .stopped x
  | .claimReady => do claimFrom (← get).members
  | .reclaim => do
    let s := (← get).last
    match ← exchangeAt s .empty .consumed with
    | .ok () => return .slot s
    | .error _ => return .nothing
  | .giveBack s => do
    modify (·.setState s .empty)
    return .done
  | .clear => do
    modify (·.setState .a .empty)
    modify (·.setState .b .empty)
    storeActive .a
    storeLast .a
    return .done

variable {h h' : Handshake} {s : Slot} {u : Use}

theorem run_exchangeAt_of_eq {expected : SlotState} (hx : h.state s = expected) (next : SlotState) :
    (exchangeAt s expected next).run h = (.ok (), h.setState s next) := by
  simp only [exchangeAt, StateT.run_bind, StateT.run_get, pure_bind, SlotState.exchange, if_pos hx]
  rfl

theorem run_exchangeAt_of_ne {expected : SlotState} (hx : h.state s ≠ expected)
    (next : SlotState) :
    (exchangeAt s expected next).run h = (.error (h.state s), h) := by
  simp only [exchangeAt, StateT.run_bind, StateT.run_get, pure_bind, SlotState.exchange, if_neg hx]
  rfl

-- The scan stops at the first slot that waits, and has changed nothing before it.
theorem run_claimFrom (h : Handshake) (l : List Slot) :
    (claimFrom l).run h =
      match l.find? fun s => decide (h.state s = .ready) with
      | some s => (.slot s, h.claimed s)
      | none => (.nothing, h) := by
  induction l with
  | nil => rfl
  | cons s rest ih =>
    rw [claimFrom, StateT.run_bind]
    by_cases hready : h.state s = .ready
    · rw [run_exchangeAt_of_eq hready, List.find?_cons_of_pos (by simpa using hready)]
      rfl
    · rw [run_exchangeAt_of_ne hready, List.find?_cons_of_neg (by simpa using hready)]
      exact ih

/-- The accesses of an operation come to what it does as a whole. -/
theorem run_accesses (h : Handshake) (u : Use) : u.accesses.run h = h.perform u := by
  cases u with
  | startFilling =>
    simp only [Use.accesses, StateT.run_bind, StateT.run_get, pure_bind, perform, startFilling]
    cases hx : h.state h.active with
    | empty =>
      rw [run_exchangeAt_of_eq hx]
      rfl
    | filling | ready | consumed =>
      rw [run_exchangeAt_of_ne (by rw [hx]; decide), hx]
      rfl
  | handOver =>
    simp only [Use.accesses, StateT.run_bind, StateT.run_get, pure_bind, perform, handOver]
    by_cases hx : h.state h.active = .filling
    · rw [run_exchangeAt_of_eq hx, SlotState.exchange, if_pos hx]
      obtain ⟨double, states, active, last⟩ := h
      cases double <;> rfl
    · rw [run_exchangeAt_of_ne hx, SlotState.exchange, if_neg hx]
      rfl
  | claimReady =>
    simp only [Use.accesses, StateT.run_bind, StateT.run_get, pure_bind, perform, claimReady,
      run_claimFrom]
    cases h.members.find? fun s => decide (h.state s = .ready) <;> rfl
  | reclaim =>
    simp only [Use.accesses, StateT.run_bind, StateT.run_get, pure_bind, perform, reclaim]
    by_cases hx : h.state h.last = .empty
    · rw [run_exchangeAt_of_eq hx, SlotState.exchange, if_pos hx]
      rfl
    · rw [run_exchangeAt_of_ne hx, SlotState.exchange, if_neg hx]
      rfl
  | giveBack s => rfl
  | clear => rfl

/-! ## 3. What an operation can do -/

/-- The ends of an operation: its answer, and the handshake after it. -/
inductive Outcome (h : Handshake) : Use → Reply × Handshake → Prop where
  | begun (hempty : h.state h.active = .empty) :
      Outcome h .startFilling (.slot h.active, h.setState h.active .filling)
  -- It is being filled already.
  | resumed (hfilling : h.state h.active = .filling) :
      Outcome h .startFilling (.slot h.active, h)
  | notBegun (hbusy : h.state h.active = .ready ∨ h.state h.active = .consumed) :
      Outcome h .startFilling (.stopped (h.state h.active), h)
  | handedOver (hfilling : h.state h.active = .filling) :
      Outcome h .handOver (.slot h.active, h.handed)
  | notHandedOver (hfilling : h.state h.active ≠ .filling) :
      Outcome h .handOver (.stopped (h.state h.active), h)
  | claimed (s : Slot) (hfirst : h.firstReady? = some s) :
      Outcome h .claimReady (.slot s, h.claimed s)
  | notClaimed (hnone : h.firstReady? = none) : Outcome h .claimReady (.nothing, h)
  | reclaimed (hempty : h.state h.last = .empty) :
      Outcome h .reclaim (.slot h.last, h.claimed h.last)
  | notReclaimed (hempty : h.state h.last ≠ .empty) : Outcome h .reclaim (.nothing, h)
  | givenBack (s : Slot) : Outcome h (.giveBack s) (.done, h.giveBack s)
  | cleared : Outcome h .clear (.done, initial h.double)

theorem startFilling_of_filling (hx : h.state h.active = .filling) :
    h.startFilling = .ok (h.active, h) := by
  rw [startFilling, hx]
  rfl

theorem startFilling_of_busy (hx : h.state h.active = .ready ∨ h.state h.active = .consumed) :
    h.startFilling = .error (h.state h.active) := by
  unfold startFilling
  rcases hx with hx | hx <;> rw [hx] <;> rfl

theorem handOver_of_ne (hx : h.state h.active ≠ .filling) :
    h.handOver = .error (h.state h.active) := by
  rw [handOver, SlotState.exchange, if_neg hx]

theorem claimReady_of_none (hfirst : h.firstReady? = none) : h.claimReady = none := by
  unfold claimReady
  rw [show h.members.find? _ = none from hfirst]

theorem outcome (h : Handshake) (u : Use) : h.Outcome u (h.perform u) := by
  cases u with
  | startFilling =>
    cases hx : h.state h.active with
    | empty =>
      simp only [perform, startFilling_of_empty hx]
      exact .begun hx
    | filling =>
      simp only [perform, startFilling_of_filling hx]
      exact .resumed hx
    | ready =>
      simp only [perform, startFilling_of_busy (.inl hx)]
      exact .notBegun (.inl hx)
    | consumed =>
      simp only [perform, startFilling_of_busy (.inr hx)]
      exact .notBegun (.inr hx)
  | handOver =>
    by_cases hfilling : h.state h.active = .filling
    · simp only [perform, handOver_of_filling hfilling]
      exact .handedOver hfilling
    · simp only [perform, handOver_of_ne hfilling]
      exact .notHandedOver hfilling
  | claimReady =>
    cases hfirst : h.firstReady? with
    | some s =>
      simp only [perform, claimReady_of_firstReady? hfirst]
      exact .claimed s hfirst
    | none =>
      simp only [perform, claimReady_of_none hfirst]
      exact .notClaimed hfirst
  | reclaim =>
    by_cases hempty : h.state h.last = .empty
    · simp only [perform, reclaim_of_empty hempty]
      exact .reclaimed hempty
    · simp only [perform, reclaim_eq_none.mpr hempty]
      exact .notReclaimed hempty
  | giveBack s => exact .givenBack s
  | clear => exact .cleared

/-! ## 4. What no operation breaks -/

theorem Shaped.perform (hh : h.Shaped) (u : Use) : (h.perform u).2.Shaped := by
  have hend := h.outcome u
  generalize h.perform u = r at hend
  cases hend with
  | begun => exact hh.setFilling
  | resumed | notBegun | notHandedOver | notClaimed | notReclaimed => exact hh
  | handedOver => exact hh.handed
  | claimed s hfirst => exact hh.claimed (hh.ready_mem (ready_of_firstReady? hfirst))
  | reclaimed => exact hh.claimed hh.last_mem
  | givenBack s => exact hh.giveBack s
  | cleared => exact .initial h.double

theorem double_perform (h : Handshake) (u : Use) : (h.perform u).2.double = h.double := by
  have hend := h.outcome u
  generalize h.perform u = r at hend
  cases hend with
  | handedOver => exact h.double_handed
  | _ => rfl

theorem Shaped.after (hh : h.Shaped) (us : List Use) : (h.after us).Shaped := by
  induction us generalizing h with
  | nil => exact hh
  | cons u rest ih => exact ih (hh.perform u)

theorem double_after (h : Handshake) (us : List Use) : (h.after us).double = h.double := by
  induction us generalizing h with
  | nil => rfl
  | cons u rest ih => rw [Handshake.after, ih, double_perform]

theorem index_lt_of_mem (hs : s ∈ h.members) : s.index < h.members.length := by
  rw [mem_members] at hs
  cases s <;> cases hd : h.double <;> simp [members, Slot.index, hd] at hs ⊢

/-! ## 5. What becomes of the slots -/

/-- The slot that an operation is about. -/
def place? (h : Handshake) : Use → Option Slot
  | .startFilling | .handOver => some h.active
  | .claimReady => h.firstReady?
  | .reclaim => some h.last
  | .giveBack s => some s
  | .clear => none

/-- The states that an operation takes a slot from and to. -/
def Use.edge? : Use → Option (SlotState × SlotState)
  | .startFilling => some (.empty, .filling)
  | .handOver => some (.filling, .ready)
  | .claimReady => some (.ready, .consumed)
  | .reclaim => some (.empty, .consumed)
  | .giveBack _ => some (.consumed, .empty)
  | .clear => none

/-- What makes an operation fail. -/
def Blocks (h : Handshake) : Use → Prop
  | .startFilling => h.state h.active = .ready ∨ h.state h.active = .consumed
  | .handOver => h.state h.active ≠ .filling
  | .claimReady => ∀ s, h.state s ≠ .ready
  | .reclaim => h.state h.last ≠ .empty
  | .giveBack _ | .clear => False

theorem Shaped.firstReady?_iff (hh : h.Shaped) : h.firstReady? = some s ↔ h.Foremost s := by
  refine ⟨fun hfirst => ⟨ready_of_firstReady? hfirst, fun t ht => ?_⟩, hh.firstReady?_of_foremost⟩
  cases s with
  | a => exact Nat.zero_le _
  | b =>
    cases t with
    | b => exact Nat.le_refl _
    | a =>
      -- the first slot waits, and the search begins with it
      cases hd : h.double <;> simp [firstReady?, members, hd, ht] at hfirst

/-- A slot whose state has changed, where only one can have changed. -/
theorem changed {t : Slot} {x : SlotState}
    (hstate : h'.state t = if t = s then x else h.state t) (ht : h'.state t ≠ h.state t) :
    t = s ∧ h'.state t = x := by
  by_cases hts : t = s
  · rw [if_pos hts] at hstate
    exact ⟨hts, hstate⟩
  · rw [if_neg hts] at hstate
    exact absurd hstate ht

namespace Outcome

variable {r : Reply × Handshake}

/-- Only the slot that an operation is about changes, and only along the operation's own edge. -/
theorem along (hend : h.Outcome u r) (hallows : h.Allows u) (hu : u ≠ .clear) {t : Slot}
    (ht : r.2.state t ≠ h.state t) :
    h.place? u = some t ∧ u.edge? = some (h.state t, r.2.state t) := by
  cases hend with
  | resumed | notBegun | notHandedOver | notClaimed | notReclaimed => exact absurd rfl ht
  | cleared => exact absurd rfl hu
  | begun hempty =>
    obtain ⟨rfl, hx⟩ := changed (h.state_setState h.active t .filling) ht
    exact ⟨rfl, by rw [hempty, hx]; rfl⟩
  | handedOver hfilling =>
    obtain ⟨rfl, hx⟩ := changed (h.state_handed t) ht
    exact ⟨rfl, by rw [hfilling, hx]; rfl⟩
  | claimed s hfirst =>
    obtain ⟨rfl, hx⟩ := changed (h.state_claimed s t) ht
    exact ⟨hfirst, by rw [ready_of_firstReady? hfirst, hx]; rfl⟩
  | reclaimed hempty =>
    obtain ⟨rfl, hx⟩ := changed (h.state_claimed h.last t) ht
    exact ⟨rfl, by rw [hempty, hx]; rfl⟩
  | givenBack s =>
    obtain ⟨rfl, hx⟩ := changed (h.state_giveBack s t) ht
    have hconsumed : h.state t = .consumed := hallows
    exact ⟨rfl, by rw [hconsumed, hx]; rfl⟩

/-- An operation that does not fail goes along its edge, unless it starts filling anew. -/
theorem taken (hend : h.Outcome u r) (hallows : h.Allows u) (hr : r.1.isFailure = false)
    (hanew : u = .startFilling → h.state h.active ≠ .filling) (hu : u ≠ .clear) :
    ∃ s, h.place? u = some s ∧ u.edge? = some (h.state s, r.2.state s) := by
  cases hend with
  | notBegun | notHandedOver | notClaimed | notReclaimed => cases hr
  | cleared => exact absurd rfl hu
  | resumed hfilling => exact absurd hfilling (hanew rfl)
  | begun hempty => exact ⟨h.active, rfl, by rw [hempty, state_setState_self]; rfl⟩
  | handedOver hfilling => exact ⟨h.active, rfl, by rw [hfilling, state_handed, if_pos rfl]; rfl⟩
  | claimed s hfirst =>
    exact ⟨s, hfirst, by rw [ready_of_firstReady? hfirst, state_claimed, if_pos rfl]; rfl⟩
  | reclaimed hempty => exact ⟨h.last, rfl, by rw [hempty, state_claimed, if_pos rfl]; rfl⟩
  | givenBack s =>
    have hconsumed : h.state s = .consumed := hallows
    exact ⟨s, rfl, by rw [hconsumed, state_giveBack, if_pos rfl]; rfl⟩

theorem failed (hend : h.Outcome u r) (hr : r.1.isFailure = true) : r.2 = h := by
  cases hend with
  | notBegun | notHandedOver | notClaimed | notReclaimed => rfl
  | begun | resumed | handedOver | claimed | reclaimed | givenBack | cleared => cases hr

theorem failed_iff (hend : h.Outcome u r) (hh : h.Shaped) :
    r.1.isFailure = true ↔ h.Blocks u := by
  cases hend with
  | begun hx | resumed hx => simp [Reply.isFailure, Blocks, hx]
  | notBegun hx | notHandedOver hx | notReclaimed hx => exact iff_of_true rfl hx
  | handedOver hx | reclaimed hx => exact iff_of_false nofun fun hne => hne hx
  | claimed s hfirst => exact iff_of_false nofun fun hnone => hnone s (ready_of_firstReady? hfirst)
  | notClaimed hnone => exact iff_of_true rfl (hh.none_ready hnone)
  | givenBack | cleared => exact iff_of_false nofun id

theorem place?_of_slot (hend : h.Outcome u r) (hr : r.1 = .slot s) : h.place? u = some s := by
  cases hend with
  | begun | resumed | handedOver | reclaimed =>
    cases hr
    rfl
  | claimed t hfirst =>
    cases hr
    exact hfirst
  | notBegun | notHandedOver | notClaimed | notReclaimed | givenBack | cleared => cases hr

theorem state_of_stopped (hend : h.Outcome u r) {x : SlotState} (hr : r.1 = .stopped x) :
    h.state h.active = x := by
  cases hend with
  | notBegun | notHandedOver =>
    cases hr
    rfl
  | begun | resumed | handedOver | claimed | notClaimed | reclaimed | notReclaimed | givenBack
  | cleared => cases hr

/-- The producer turns to the other slot after a hand-over of one of two, and never else. -/
theorem turned (hend : h.Outcome u r) (hactive : r.2.active ≠ h.active) (hu : u ≠ .clear) :
    u = .handOver ∧ r.1 = .slot h.active ∧ h.double = true ∧ r.2.active = h.active.other := by
  cases hend with
  | handedOver hfilling =>
    have hmoved := h.active_handed
    cases hd : h.double with
    | true =>
      rw [hd, if_pos rfl] at hmoved
      exact ⟨rfl, rfl, rfl, hmoved⟩
    | false =>
      rw [hd] at hmoved
      exact absurd hmoved hactive
  | cleared => exact absurd rfl hu
  | _ => exact absurd rfl hactive

/-- The consumer remembers a slot that it has claimed because it waited, and never another. -/
theorem remembered (hend : h.Outcome u r) (hlast : r.2.last ≠ h.last) (hu : u ≠ .clear) :
    u = .claimReady ∧ r.1 = .slot r.2.last := by
  cases hend with
  | claimed s hfirst => exact ⟨rfl, rfl⟩
  | handedOver hfilling => exact absurd h.last_handed hlast
  | cleared => exact absurd rfl hu
  | _ => exact absurd rfl hlast

end Outcome

/-! ## 6. The cycle -/

/-- An operation that keeps to the cycle: its answer, and the handshake after it. -/
structure InCycle (h : Handshake) (u : Use) (r : Reply × Handshake) : Prop where
  -- Nothing changes but the slot that it is about, and that only along its edge.
  along : u ≠ .clear → ∀ s, r.2.state s ≠ h.state s →
    h.place? u = some s ∧ u.edge? = some (h.state s, r.2.state s)
  -- That slot goes along the edge unless the operation fails or it is being filled already.
  taken : u ≠ .clear → r.1.isFailure = false →
    (u = .startFilling → h.state h.active ≠ .filling) →
    ∃ s, h.place? u = some s ∧ u.edge? = some (h.state s, r.2.state s)
  resumed : u = .startFilling → h.state h.active = .filling → r = (.slot h.active, h)
  cleared : u = .clear → r.2 = initial h.double
  lowest : u = .claimReady → ∀ s, h.place? u = some s ↔ h.Foremost s
  answered : ∀ s, r.1 = .slot s → h.place? u = some s
  stopped : ∀ x, r.1 = .stopped x → h.state h.active = x
  failed : r.1.isFailure = true → r.2 = h
  failed_iff : r.1.isFailure = true ↔ h.Blocks u
  active : r.2.active ≠ h.active → u = .clear ∨
    u = .handOver ∧ r.1 = .slot h.active ∧ h.double = true ∧ r.2.active = h.active.other
  last : r.2.last ≠ h.last → u = .clear ∨ u = .claimReady ∧ r.1 = .slot r.2.last

theorem Shaped.inCycle (hh : h.Shaped) (hallows : h.Allows u) : h.InCycle u (h.perform u) := by
  have hend := h.outcome u
  constructor
  case along => exact fun hu s hs => hend.along hallows hu hs
  case taken => exact fun hu hr hanew => hend.taken hallows hr hanew hu
  case resumed =>
    rintro rfl hfilling
    simp only [Handshake.perform, startFilling_of_filling hfilling]
  case cleared =>
    rintro rfl
    rfl
  case lowest =>
    rintro rfl s
    exact hh.firstReady?_iff
  case answered => exact fun s hs => hend.place?_of_slot hs
  case stopped => exact fun x hx => hend.state_of_stopped hx
  case failed => exact hend.failed
  case failed_iff => exact hend.failed_iff hh
  case active => exact fun hactive => Decidable.or_iff_not_imp_left.mpr (hend.turned hactive)
  case last => exact fun hlast => Decidable.or_iff_not_imp_left.mpr (hend.remembered hlast)

/-- After any operations in any order:

* both places are slots that take part, and a second slot that takes no part is empty;
* at most one slot is being filled, and it is the active one;
* whatever operation comes next keeps to the cycle, if only it does not give back a slot that is not
  being read.  It changes at most the slot that it is about, and that only along its own edge; a
  claim is about the lowest slot that waits.  To forget everything brings back the beginning;
* an operation that fails changes nothing, nor does filling a slot that is being filled.  A claim
  fails exactly where no slot waits;
* the places move only with the hand-over of one of two slots, with the claim of a slot that waits,
  and with forgetting;
* all this holds of the accesses that the operation consists of, made one after the other. -/
theorem keeps_to_cycle (double : Bool) (us : List Use) (u : Use)
    (hu : ((initial double).after us).Allows u) :
    let h := (initial double).after us
    h.double = double ∧
      h.active.index < h.members.length ∧ h.last.index < h.members.length ∧
      (double = false → h.state .b = .empty) ∧
      (∀ s, h.state s = .filling → s = h.active) ∧
      h.InCycle u (h.perform u) ∧
      u.accesses.run h = h.perform u := by
  intro h
  have hdouble : h.double = double := double_after _ us
  have hh : h.Shaped := (Shaped.initial double).after us
  exact ⟨hdouble, index_lt_of_mem hh.active_mem, index_lt_of_mem hh.last_mem,
    fun hsingle => hh.single_other (hdouble.trans hsingle), hh.filling_active, hh.inCycle hu,
    h.run_accesses u⟩

/-- Without back-pressure two slots wait at once.  The first is claimed and given back, and the second
goes on waiting. -/
theorem cycle_of_two_waiting :
    let us : List Use := [.startFilling, .handOver, .startFilling, .handOver, .claimReady]
    let h := (initial true).after us
    let h' := (h.perform (.giveBack .a)).2
    h.Allows (.giveBack .a) ∧ h.state .b = .ready ∧ h'.state .a = .empty ∧ h'.state .b = .ready := by
  intro us h h'
  have hallows : h.Allows (.giveBack .a) := by decide
  have hwaiting : h.state .b = .ready := by decide
  obtain ⟨-, -, -, -, -, hcycle, -⟩ := keeps_to_cycle true us (.giveBack .a) hallows
  -- only the slot that is given back changes
  have hkept : h'.state .b = h.state .b := Decidable.byContradiction fun hchanged =>
    nomatch (hcycle.along nofun .b hchanged).1
  obtain ⟨s, hplace, hedge⟩ := hcycle.taken nofun rfl nofun
  cases hplace
  have hgiven := congrArg (·.map Prod.snd) hedge
  exact ⟨hallows, hwaiting, (Option.some.inj hgiven).symm, hkept.trans hwaiting⟩

end Handshake

end Playout

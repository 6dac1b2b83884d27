import Playout.Proofs.Atomic

/-!
# Every interleaving

However the accesses of the two sides fall between one another, at most one slot waits, no slot is
in two hands, and the buffers are claimed in the order in which they were handed over, each once and
none left out.
-/

namespace Playout

namespace Atomic

/-! ## 1. Buffers by number -/

/-- The buffers that have been handed over, numbered as they come, and those that have been
claimed. -/
structure Tally where
  -- How many buffers have been handed over.
  handedOver : Nat
  -- The one that was handed over last in each slot.
  inSlot : PerSlot Nat
  -- Those that have been claimed, in the order of the claims.
  claimed : List Nat
deriving DecidableEq, Repr

namespace Tally

def zero : Tally := ⟨0, .both 0, []⟩

def note (x : Tally) : Milestone → Tally
  | .handedOver s =>
    { x with handedOver := x.handedOver + 1, inSlot := x.inSlot.set s x.handedOver }
  | .claimed s => { x with claimed := x.claimed ++ [x.inSlot.get s] }
  | .begun _ | .reclaimed _ | .givenBack _ => x

/-- What the tally is to the handshake: at most the last buffer has not been claimed, and it is in
the slot that waits. -/
structure Fits (x : Tally) (h : Handshake) : Prop where
  inOrder : x.claimed = List.range x.claimed.length
  waiting : ∀ s, h.state s = .ready →
    x.inSlot.get s = x.claimed.length ∧ x.handedOver = x.claimed.length + 1
  settled : (∀ s, h.state s ≠ .ready) → x.handedOver = x.claimed.length

namespace Fits

variable {x : Tally} {h h' : Handshake}

theorem initial (double : Bool) : zero.Fits (.initial double) where
  inOrder := rfl
  waiting s hs := by simp at hs
  settled _ := rfl

theorem of_ready_iff (hx : x.Fits h) (hready : ∀ s, h'.state s = .ready ↔ h.state s = .ready) :
    x.Fits h' where
  inOrder := hx.inOrder
  waiting s hs := hx.waiting s ((hready s).mp hs)
  settled hnone := hx.settled fun s hs => hnone s ((hready s).mpr hs)

theorem handed (hx : x.Fits h) (hfilling : h.state h.active = .filling) (hh' : h.handed.Tidy) :
    (x.note (.handedOver h.active)).Fits h.handed := by
  have hactive : h.handed.state h.active = .ready := by rw [Handshake.state_handed, if_pos rfl]
  -- nothing waited, or two slots would wait now
  have hnone : ∀ s, h.state s ≠ .ready := by
    intro s hs
    have hne : s ≠ h.active := by
      rintro rfl
      rw [hfilling] at hs
      cases hs
    have hs' : h.handed.state s = .ready := by rw [Handshake.state_handed, if_neg hne, hs]
    exact hne (hh'.ready_unique hs' hactive)
  have hcount := hx.settled hnone
  refine ⟨hx.inOrder, fun s hs => ?_, fun hnone' => absurd hactive (hnone' h.active)⟩
  obtain rfl := hh'.ready_unique hs hactive
  show (x.inSlot.set h.active x.handedOver).get h.active = x.claimed.length ∧
    x.handedOver + 1 = x.claimed.length + 1
  rw [PerSlot.get_set_self]
  omega

theorem claimed (hx : x.Fits h) {s : Slot} (hs : h.state s = .ready) (hh : h.Tidy) :
    (x.note (.claimed s)).Fits (h.claimed s) := by
  obtain ⟨hnumber, hcount⟩ := hx.waiting s hs
  -- the slot was the only one to wait
  have hnone : ∀ t, (h.claimed s).state t ≠ .ready := by
    intro t ht
    obtain ⟨hne, ht⟩ := Handshake.state_of_state_claimed (by decide) ht
    exact hne (hh.ready_unique ht hs)
  have hlength : (x.note (.claimed s)).claimed.length = x.claimed.length + 1 :=
    List.length_append
  refine ⟨?_, fun t ht => absurd ht (hnone t), fun _ => hcount.trans hlength.symm⟩
  rw [hlength, List.range_succ, ← hx.inOrder, ← hnumber]
  rfl

theorem makes (hx : x.Fits h) (hh : h.Tidy) (hh' : h'.Tidy) {o : Option Milestone}
    (hmakes : Makes h o h') : (o.toList.foldl note x).Fits h' := by
  cases hmakes with
  | nothing => exact hx
  | begun e =>
    obtain ⟨-, hfillable, rfl⟩ := Handshake.startFilling_eq_ok e
    refine hx.of_ready_iff fun t => ?_
    rw [Handshake.state_setState]
    split
    next heq => rcases hfillable with hs | hs <;> simp [heq, hs]
    next => rfl
  | handedOver e =>
    obtain ⟨rfl, hfilling, rfl⟩ := Handshake.handOver_eq_ok e
    exact hx.handed hfilling hh'
  | claimed e =>
    obtain ⟨-, hs, rfl⟩ := Handshake.claimReady_eq_some e
    exact hx.claimed hs hh
  | reclaimed e =>
    obtain ⟨rfl, hempty, rfl⟩ := Handshake.reclaim_eq_some e
    refine hx.of_ready_iff fun t => ?_
    rw [Handshake.state_claimed]
    split
    next heq => simp [heq, hempty]
    next => rfl
  | @givenBack s hs =>
    refine hx.of_ready_iff fun t => ?_
    rw [Handshake.state_giveBack]
    split
    next heq => simp [heq, hs]
    next => rfl

end Fits

end Tally

def tally (ms : List Milestone) : Tally := ms.foldl .note .zero

/-! ## 2. Runs -/

namespace State

theorem run_induction {motive : List Milestone → State → Prop} {m : State} (start : motive [] m)
    (next : ∀ ms m t, motive ms m → motive (ms ++ (m.step t).1.toList) (m.step t).2)
    (ts : List Tick) : motive (m.run ts).1 (m.run ts).2 := by
  suffices h : ∀ ms m, motive ms m → motive (ms ++ (m.run ts).1) (m.run ts).2 from h [] m start
  induction ts with
  | nil =>
    intro ms m hm
    simpa [run] using hm
  | cons t rest ih =>
    intro ms m hm
    have hrest := ih (ms ++ (m.step t).1.toList) (m.step t).2 (next ms m t hm)
    rwa [List.append_assoc] at hrest

theorem inv_run (double : Bool) (fallback : Fallback) (ts : List Tick) :
    let r := (start double fallback).run ts
    r.2.Inv ∧ (tally r.1).Fits r.2.view := by
  refine run_induction (motive := fun ms m => m.Inv ∧ (tally ms).Fits m.view) ?_ ?_ ts
  · exact ⟨inv_start double fallback, .initial double⟩
  · rintro ms m t ⟨hm, hx⟩
    have hgoes := hm.step t
    refine ⟨hgoes.inv, ?_⟩
    rw [tally, List.foldl_append]
    exact hx.makes hm.owned.tidy hgoes.inv.owned.tidy hgoes.makes

end State

/-! ## 3. Safety -/

/-- After any accesses of the two sides, in any order, with one slot or with two:

* at most one slot waits;
* the slot that the producer has taken is the one being filled, and those that the consumer has
  claimed are the ones being read, so that none is in two hands;
* no access claims a slot that the producer has taken, and none takes a slot that the consumer has
  claimed;
* the buffers that have been claimed are the first ones that were handed over, in that order and
  each once, and at most the last one has not been claimed yet;
* the next access is invisible or one step of the handshake. -/
theorem interleavings (double : Bool) (fallback : Fallback) (ts : List Tick) :
    let r := (State.start double fallback).run ts
    let m := r.2
    (∀ s s', m.shared.state s = .ready → m.shared.state s' = .ready → s = s') ∧
    (∀ s, (m.shared.state s = .filling ↔ m.lent = some s) ∧
      (m.shared.state s = .consumed ↔ s ∈ m.held)) ∧
    (∀ t s, (m.step t).1 = some (.claimed s) ∨ (m.step t).1 = some (.reclaimed s) →
      m.lent ≠ some s) ∧
    (∀ t s, (m.step t).1 = some (.begun s) → s ∉ m.held) ∧
    (∃ n, (tally r.1).claimed = List.range n ∧
      n ≤ (tally r.1).handedOver ∧ (tally r.1).handedOver ≤ n + 1) ∧
    ∀ t, Makes m.view (m.step t).1 (m.step t).2.view := by
  intro r m
  obtain ⟨hm, hx⟩ : m.Inv ∧ (tally r.1).Fits m.view := State.inv_run double fallback ts
  have howned := hm.owned
  refine ⟨fun s s' => howned.tidy.ready_unique, fun s => ⟨howned.filling s, howned.consumed s⟩,
    fun t s hclaim hlent => ?_, fun t s hbegun hheld => ?_, ⟨_, hx.inOrder, ?_⟩,
    fun t => (hm.step t).makes⟩
  · -- what can be claimed waits or is empty
    have hmakes := (hm.step t).makes
    have hfilling := (howned.filling s).mpr hlent
    rcases hclaim with h | h
    · rw [h] at hmakes
      cases hmakes with
      | claimed e =>
        rw [(Handshake.claimReady_eq_some e).2.1] at hfilling
        cases hfilling
    · rw [h] at hmakes
      cases hmakes with
      | reclaimed e =>
        obtain ⟨rfl, hempty, -⟩ := Handshake.reclaim_eq_some e
        rw [hempty] at hfilling
        cases hfilling
  · -- what can be taken is empty
    have hmakes := (hm.step t).makes
    have hconsumed := (howned.consumed s).mpr hheld
    rw [hbegun] at hmakes
    cases hmakes with
    | begun e =>
      obtain ⟨rfl, hfillable, -⟩ := Handshake.startFilling_eq_ok e
      rw [hconsumed] at hfillable
      rcases hfillable with h | h <;> cases h
  · by_cases hready : ∃ s, m.view.state s = .ready
    · obtain ⟨s, hs⟩ := hready
      have hcount := (hx.waiting s hs).2
      omega
    · have hcount := hx.settled fun s hs => hready ⟨s, hs⟩
      omega

/-- A pull that looks at the first slot just before a buffer is handed over in it finds nothing; the
next one claims it while the producer has yet to turn to the other slot. -/
theorem interleavings_of_two_pulls :
    let borrowing : List Tick := [.borrow, .produce, .produce]
    let committing : List Tick := [.commit, .produce, .produce, .produce, .produce, .produce]
    let r := (State.start true .silence).run
      (borrowing ++ committing ++ [.pull, .consume, .produce, .consume, .pull, .consume])
    r.1 = [.begun .a, .handedOver .a, .claimed .a] ∧ r.2.producer = .turn .a ∧
      .a ∈ r.2.held ∧ ∀ t, (r.2.step t).1 ≠ some (.begun .a) := by
  intro borrowing committing r
  have hlog : r.1 = [.begun .a, .handedOver .a, .claimed .a] := by decide +kernel
  have hturn : r.2.producer = .turn .a := by decide +kernel
  have hall := interleavings true .silence
    (borrowing ++ committing ++ [.pull, .consume, .produce, .consume, .pull, .consume])
  have hheld : .a ∈ r.2.held := (hall.2.1 .a).2.mp (by decide +kernel)
  exact ⟨hlog, hturn, hheld, fun t hbegun => hall.2.2.2.1 t .a hbegun hheld⟩

end Atomic

end Playout

import Playout.Handshake

/-!
# What the steps of the handshake do

For each step, all that it can do, guards included; the shape that no step breaks, whatever the
order: a stream with one slot keeps to it, and only the active slot is ever being filled; and where a
waiting slot is, as long as the producer hands over only when the other slot does not wait.
-/

namespace Playout

theorem Slot.ne_iff_eq_other {s t : Slot} : s ≠ t ↔ s = t.other := by
  cases s <;> cases t <;> decide

namespace Handshake

variable {h h' : Handshake} {s : Slot}

/-! ## 1. Which slots take part -/

theorem mem_members : s ∈ h.members ↔ s = .a ∨ h.double = true := by
  cases s <;> cases hd : h.double <;> simp [members, hd]

@[simp] theorem state_initial (double : Bool) (s : Slot) : (initial double).state s = .empty :=
  PerSlot.get_both _ s

/-! ## 2. What each step can do -/

theorem setState_state (h : Handshake) (s : Slot) : h.setState s (h.state s) = h := by
  rw [setState, state, PerSlot.set_get]

theorem startFilling_eq_ok (e : h.startFilling = .ok (s, h')) :
    s = h.active ∧ (h.state h.active = .empty ∨ h.state h.active = .filling) ∧
      h' = h.setState h.active .filling := by
  unfold startFilling SlotState.exchange at e
  cases hx : h.state h.active with
  | empty =>
    rw [hx] at e
    cases e
    exact ⟨rfl, .inl rfl, rfl⟩
  | filling =>
    have hsame : h.setState h.active .filling = h := by rw [← hx, setState_state]
    rw [hx] at e
    cases e
    exact ⟨rfl, .inr rfl, hsame.symm⟩
  | ready => simp [hx] at e
  | consumed => simp [hx] at e

theorem startFilling_of_empty (hx : h.state h.active = .empty) :
    h.startFilling = .ok (h.active, h.setState h.active .filling) := by
  rw [startFilling, SlotState.exchange, if_pos hx]

theorem startFilling_ne_ready (hready : h.state h.active ≠ .ready) :
    h.startFilling ≠ .error .ready := by
  intro e
  unfold startFilling SlotState.exchange at e
  cases hx : h.state h.active <;> simp [hx] at e hready

/-- The handshake after the active slot has been handed over. -/
def handed (h : Handshake) : Handshake :=
  let waiting := h.setState h.active .ready
  if h.double then { waiting with active := h.active.other } else waiting

theorem handOver_eq_ok (e : h.handOver = .ok (s, h')) :
    s = h.active ∧ h.state h.active = .filling ∧ h' = h.handed := by
  unfold handOver SlotState.exchange at e
  by_cases hx : h.state h.active = .filling
  · rw [if_pos hx] at e
    cases e
    exact ⟨rfl, hx, rfl⟩
  · rw [if_neg hx] at e
    cases e

theorem handOver_of_filling (hx : h.state h.active = .filling) :
    h.handOver = .ok (h.active, h.handed) := by
  rw [handOver, SlotState.exchange, if_pos hx]
  rfl

theorem state_handed (h : Handshake) (s : Slot) :
    h.handed.state s = if s = h.active then .ready else h.state s := by
  have hset := h.state_setState h.active s .ready
  unfold handed
  split <;> exact hset

theorem states_handed (h : Handshake) : h.handed.states = h.states.set h.active .ready := by
  unfold handed
  split <;> rfl

@[simp] theorem double_handed (h : Handshake) : h.handed.double = h.double := by
  unfold handed
  split <;> rfl

@[simp] theorem last_handed (h : Handshake) : h.handed.last = h.last := by
  unfold handed
  split <;> rfl

theorem active_handed (h : Handshake) :
    h.handed.active = if h.double then h.active.other else h.active := by
  unfold handed
  split <;> rfl

/-- The handshake after a slot has been claimed. -/
def claimed (h : Handshake) (s : Slot) : Handshake := { h.setState s .consumed with last := s }

theorem state_claimed (h : Handshake) (s t : Slot) :
    (h.claimed s).state t = if t = s then .consumed else h.state t :=
  h.states.get_set s t .consumed

-- A claim leaves the claimed slot in no other state, and the other slot alone.
theorem state_of_state_claimed {t : Slot} {v : SlotState} (hv : v ≠ .consumed)
    (ht : (h.claimed s).state t = v) : t ≠ s ∧ h.state t = v := by
  rw [state_claimed] at ht
  split at ht
  next => exact absurd ht.symm hv
  next hne => exact ⟨hne, ht⟩

theorem state_claimed_of_state {t : Slot} {v : SlotState} (hs : h.state s ≠ v)
    (ht : h.state t = v) : (h.claimed s).state t = v := by
  rw [state_claimed, if_neg]
  · exact ht
  · rintro rfl
    exact hs ht

theorem state_claimed_iff {t : Slot} {v : SlotState} (hv : v ≠ .consumed) (hs : h.state s ≠ v) :
    (h.claimed s).state t = v ↔ h.state t = v :=
  ⟨fun ht => (state_of_state_claimed hv ht).2, state_claimed_of_state hs⟩

@[simp] theorem double_claimed (h : Handshake) (s : Slot) : (h.claimed s).double = h.double := rfl

@[simp] theorem last_claimed (h : Handshake) (s : Slot) : (h.claimed s).last = s := rfl

theorem claimReady_eq_some (e : h.claimReady = some (s, h')) :
    s ∈ h.members ∧ h.state s = .ready ∧ h' = h.claimed s := by
  unfold claimReady at e
  split at e
  next t hfind =>
    cases e
    have hready := List.find?_some hfind
    exact ⟨List.mem_of_find?_eq_some hfind, of_decide_eq_true hready, rfl⟩
  next => cases e

theorem claimReady_eq_none : h.claimReady = none ↔ ∀ s ∈ h.members, h.state s ≠ .ready := by
  unfold claimReady
  split
  next t hfind =>
    constructor
    · intro e
      cases e
    · intro hnone
      have hready := List.find?_some hfind
      exact absurd (of_decide_eq_true hready) (hnone t (List.mem_of_find?_eq_some hfind))
  next hfind => simpa using hfind

theorem reclaim_eq_some (e : h.reclaim = some (s, h')) :
    s = h.last ∧ h.state h.last = .empty ∧ h' = h.claimed h.last := by
  unfold reclaim SlotState.exchange at e
  by_cases hx : h.state h.last = .empty
  · rw [if_pos hx] at e
    cases e
    exact ⟨rfl, hx, rfl⟩
  · rw [if_neg hx] at e
    cases e

theorem reclaim_of_empty (hx : h.state h.last = .empty) :
    h.reclaim = some (h.last, h.claimed h.last) := by
  rw [reclaim, SlotState.exchange, if_pos hx]
  rfl

theorem reclaim_eq_none : h.reclaim = none ↔ h.state h.last ≠ .empty := by
  unfold reclaim SlotState.exchange
  by_cases hx : h.state h.last = .empty <;> simp [hx]

theorem state_giveBack (h : Handshake) (s t : Slot) :
    (h.giveBack s).state t = if t = s then .empty else h.state t :=
  h.state_setState s t .empty

theorem state_of_state_giveBack {t : Slot} {v : SlotState} (hv : v ≠ .empty)
    (ht : (h.giveBack s).state t = v) : h.state t = v := by
  rw [state_giveBack] at ht
  split at ht
  next => exact absurd ht.symm hv
  next => exact ht

theorem state_giveBack_of_state {t : Slot} {v : SlotState} (hs : h.state s = .consumed)
    (hv : v ≠ .consumed) (ht : h.state t = v) : (h.giveBack s).state t = v := by
  rw [state_giveBack, if_neg]
  · exact ht
  · rintro rfl
    rw [hs] at ht
    exact hv ht.symm

theorem state_giveBack_iff {t : Slot} {v : SlotState} (hs : h.state s = .consumed)
    (hempty : v ≠ .empty) (hv : v ≠ .consumed) : (h.giveBack s).state t = v ↔ h.state t = v :=
  ⟨state_of_state_giveBack hempty, state_giveBack_of_state hs hv⟩

/-! ## 3. The shape that every step keeps -/

/-- With one slot both sides stay with it, and only the active slot is being filled. -/
structure Shaped (h : Handshake) : Prop where
  single_active : h.double = false → h.active = .a
  single_last : h.double = false → h.last = .a
  single_other : h.double = false → h.state .b = .empty
  filling_active : ∀ s, h.state s = .filling → s = h.active

namespace Shaped

theorem initial (double : Bool) : (Handshake.initial double).Shaped where
  single_active _ := rfl
  single_last _ := rfl
  single_other _ := rfl
  filling_active s hs := by simp at hs

theorem setFilling (hh : h.Shaped) : (h.setState h.active .filling).Shaped where
  single_active := hh.single_active
  single_last := hh.single_last
  single_other hd := by
    rw [double_setState] at hd
    rw [state_setState, hh.single_active hd, if_neg (by decide), hh.single_other hd]
  filling_active t ht := by
    rw [state_setState] at ht
    split at ht
    next hactive => exact hactive
    next => exact hh.filling_active t ht

theorem handed (hh : h.Shaped) : h.handed.Shaped where
  single_active hd := by
    rw [double_handed] at hd
    rw [active_handed, hd]
    exact hh.single_active hd
  single_last hd := by
    rw [double_handed] at hd
    rw [last_handed, hh.single_last hd]
  single_other hd := by
    rw [double_handed] at hd
    rw [state_handed, hh.single_active hd, if_neg (by decide), hh.single_other hd]
  filling_active t ht := by
    rw [state_handed] at ht
    split at ht
    next => cases ht
    next hne => exact absurd (hh.filling_active t ht) hne

theorem claimed (hh : h.Shaped) (hs : s ∈ h.members) : (h.claimed s).Shaped where
  single_active := hh.single_active
  single_last hd := by
    rw [double_claimed] at hd
    simpa [mem_members, hd] using hs
  single_other hd := by
    rw [double_claimed] at hd
    have ha : s = .a := by simpa [mem_members, hd] using hs
    rw [state_claimed, ha, if_neg (by decide), hh.single_other hd]
  filling_active t ht := by
    rw [state_claimed] at ht
    split at ht
    · cases ht
    · exact hh.filling_active t ht

theorem last_mem (hh : h.Shaped) : h.last ∈ h.members := by
  rw [mem_members]
  cases hd : h.double with
  | true => exact .inr rfl
  | false => exact .inl (hh.single_last hd)

theorem active_mem (hh : h.Shaped) : h.active ∈ h.members := by
  rw [mem_members]
  cases hd : h.double with
  | true => exact .inr rfl
  | false => exact .inl (hh.single_active hd)

-- A slot that takes no part stays empty.
theorem mem_of_ne_empty (hh : h.Shaped) (hs : h.state s ≠ .empty) : s ∈ h.members := by
  rw [mem_members]
  cases hd : h.double with
  | true => exact .inr rfl
  | false =>
    cases s with
    | a => exact .inl rfl
    | b => exact absurd (hh.single_other hd) hs

theorem ready_mem (hh : h.Shaped) (hs : h.state s = .ready) : s ∈ h.members :=
  hh.mem_of_ne_empty (by rw [hs]; decide)

theorem giveBack (hh : h.Shaped) (s : Slot) : (h.giveBack s).Shaped where
  single_active := hh.single_active
  single_last := hh.single_last
  single_other hd := by
    rw [state_giveBack]
    split
    · rfl
    · exact hh.single_other hd
  filling_active t ht := by
    rw [state_giveBack] at ht
    split at ht
    · cases ht
    · exact hh.filling_active t ht

end Shaped

/-! ## 4. Where a waiting slot is -/

/-- In shape, and with two slots the active one does not wait. -/
structure Tidy (h : Handshake) : Prop extends Shaped h where
  active_unready : h.double = true → h.state h.active ≠ .ready

namespace Tidy

theorem initial (double : Bool) : (Handshake.initial double).Tidy where
  toShaped := .initial double
  active_unready _ := by simp

theorem setFilling (hh : h.Tidy) : (h.setState h.active .filling).Tidy where
  toShaped := hh.toShaped.setFilling
  active_unready _ := by simp

/-- Back-pressure: with the other slot not waiting, the producer turns to one that does not wait. -/
theorem handed (hh : h.Tidy) (hsibling : h.siblingReady = false) : h.handed.Tidy where
  toShaped := hh.toShaped.handed
  active_unready hd := by
    rw [double_handed] at hd
    rw [active_handed, if_pos hd, state_handed, if_neg (Slot.other_ne _)]
    simpa [siblingReady, hd] using hsibling

theorem claimed (hh : h.Tidy) (hs : s ∈ h.members) : (h.claimed s).Tidy where
  toShaped := hh.toShaped.claimed hs
  active_unready hd ha := hh.active_unready hd (state_of_state_claimed (by decide) ha).2

theorem giveBack (hh : h.Tidy) (s : Slot) : (h.giveBack s).Tidy where
  toShaped := hh.toShaped.giveBack s
  active_unready hd ha := hh.active_unready hd (state_of_state_giveBack (by decide) ha)

/-- Two waiting slots are the same. -/
theorem ready_unique (hh : h.Tidy) {t : Slot} (hs : h.state s = .ready) (ht : h.state t = .ready) :
    s = t := by
  cases hd : h.double with
  | true =>
    -- neither is the active one
    have hne : ∀ u, h.state u = .ready → u = h.active.other := by
      intro u hu
      rw [← Slot.ne_iff_eq_other]
      rintro rfl
      exact hh.active_unready hd hu
    rw [hne s hs, hne t ht]
  | false =>
    -- neither is the second one
    have hmem : ∀ u, h.state u = .ready → u = .a := by
      intro u hu
      simpa [mem_members, hd] using hh.ready_mem hu
    rw [hmem s hs, hmem t ht]

-- The one slot that waits is the one that is claimed.
theorem claimReady_of_ready (hh : h.Tidy) (hs : h.state s = .ready) :
    h.claimReady = some (s, h.claimed s) := by
  cases hclaim : h.claimReady with
  | none => exact absurd hs (claimReady_eq_none.mp hclaim s (hh.ready_mem hs))
  | some r =>
    obtain ⟨t, h'⟩ := r
    obtain ⟨-, ht, rfl⟩ := claimReady_eq_some hclaim
    rw [hh.ready_unique hs ht]

/-- Where the producer may hand over, nothing waits. -/
theorem none_ready (hh : h.Tidy) (hfilling : h.state h.active = .filling)
    (hsibling : h.siblingReady = false) (s : Slot) : h.state s ≠ .ready := by
  intro hs
  have hne : s ≠ h.active := by
    rintro rfl
    simp [hfilling] at hs
  rw [Slot.ne_iff_eq_other] at hne
  subst hne
  cases hd : h.double with
  | true => simp [siblingReady, hd, hs] at hsibling
  | false =>
    -- the one slot there is cannot be beside itself
    have hmem := hh.ready_mem hs
    rw [mem_members, hd, hh.single_active hd] at hmem
    simp [Slot.other] at hmem

end Tidy

/-! ## 5. What the consumer can do -/

/-- What any number of steps of the consumer make of a handshake. -/
inductive Touched (h : Handshake) : Handshake → Prop where
  | rest : Touched h h
  | claim {h' : Handshake} (ht : Touched h h') (s : Slot) (hmem : s ∈ h'.members)
      (hready : h'.state s = .ready) : Touched h (h'.claimed s)
  | reclaim {h' : Handshake} (ht : Touched h h') (hempty : h'.state h'.last = .empty) :
      Touched h (h'.claimed h'.last)
  | giveBack {h' : Handshake} (ht : Touched h h') (s : Slot) (hconsumed : h'.state s = .consumed) :
      Touched h (h'.giveBack s)

namespace Touched

theorem trans {h'' : Handshake} (ht : h.Touched h') (ht' : h'.Touched h'') : h.Touched h'' := by
  induction ht' with
  | rest => exact ht
  | claim _ s hmem hready ih => exact .claim ih s hmem hready
  | reclaim _ hempty ih => exact .reclaim ih hempty
  | giveBack _ s hconsumed ih => exact .giveBack ih s hconsumed

theorem active (ht : h.Touched h') : h'.active = h.active := by
  induction ht with
  | rest => rfl
  | claim _ _ _ _ ih => exact ih
  | reclaim _ _ ih => exact ih
  | giveBack _ _ _ ih => exact ih

theorem double (ht : h.Touched h') : h'.double = h.double := by
  induction ht with
  | rest => rfl
  | claim _ _ _ _ ih => exact ih
  | reclaim _ _ ih => exact ih
  | giveBack _ _ _ ih => exact ih

/-- A slot that is being filled is left alone. -/
theorem filling (ht : h.Touched h') (hs : h.state s = .filling) : h'.state s = .filling := by
  induction ht with
  | rest => exact hs
  | claim _ t _ hready ih => exact state_claimed_of_state (by rw [hready]; decide) ih
  | reclaim _ hempty ih => exact state_claimed_of_state (by rw [hempty]; decide) ih
  | giveBack _ t hconsumed ih => exact state_giveBack_of_state hconsumed (by decide) ih

/-- The consumer makes no slot wait. -/
theorem unready (ht : h.Touched h') (hs : h.state s ≠ .ready) : h'.state s ≠ .ready := by
  induction ht with
  | rest => exact hs
  | claim _ t _ _ ih => exact fun hr => ih (state_of_state_claimed (by decide) hr).2
  | reclaim _ _ ih => exact fun hr => ih (state_of_state_claimed (by decide) hr).2
  | giveBack _ t _ ih => exact fun hr => ih (state_of_state_giveBack (by decide) hr)

theorem siblingReady (ht : h.Touched h') (hs : h.siblingReady = false) :
    h'.siblingReady = false := by
  cases hd : h.double with
  | false => simp [Handshake.siblingReady, ht.double, hd]
  | true =>
    have hother : h.state h.active.other ≠ .ready := by simpa [Handshake.siblingReady, hd] using hs
    simpa [Handshake.siblingReady, ht.double, hd, ht.active] using ht.unready hother

theorem tidy (ht : h.Touched h') (hh : h.Tidy) : h'.Tidy := by
  induction ht with
  | rest => exact hh
  | claim _ s hmem _ ih => exact ih.claimed hmem
  | reclaim _ _ ih => exact ih.claimed ih.last_mem
  | giveBack _ s _ ih => exact ih.giveBack s

end Touched

/-- Before the first hand-over only the first slot is in use, and it does not wait. -/
structure Unstarted (h : Handshake) : Prop where
  active : h.active = .a
  last : h.last = .a
  second : h.state .b = .empty
  first : h.state .a ≠ .ready

namespace Unstarted

theorem initial (double : Bool) : (Handshake.initial double).Unstarted :=
  ⟨rfl, rfl, state_initial double .b, by simp⟩

theorem setFilling (hh : h.Unstarted) : (h.setState h.active .filling).Unstarted where
  active := hh.active
  last := hh.last
  second := by rw [state_setState, hh.active, if_neg (by decide), hh.second]
  first := by
    rw [hh.active, state_setState_self]
    decide

theorem giveBack (hh : h.Unstarted) (s : Slot) : (h.giveBack s).Unstarted where
  active := hh.active
  last := hh.last
  second := by
    rw [state_giveBack]
    split
    · rfl
    · exact hh.second
  first ha := hh.first (state_of_state_giveBack (by decide) ha)

theorem none_ready (hh : h.Unstarted) (s : Slot) : h.state s ≠ .ready := by
  cases s with
  | a => exact hh.first
  | b =>
    rw [hh.second]
    decide

theorem touched (hh : h.Unstarted) (ht : h.Touched h') : h'.Unstarted := by
  induction ht with
  | rest => exact hh
  | claim _ s _ hready ih => exact absurd hready (ih.none_ready s)
  | reclaim _ _ ih =>
    -- the slot claimed last is the first one
    rw [ih.last]
    refine ⟨ih.active, rfl, ?_, ?_⟩
    · rw [state_claimed, if_neg (by decide), ih.second]
    · rw [state_claimed, if_pos rfl]
      decide
  | giveBack _ s _ ih => exact ih.giveBack s

end Unstarted

end Handshake

end Playout

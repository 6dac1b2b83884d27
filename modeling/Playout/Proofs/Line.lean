import Playout.Proofs.Ledger

/-!
# The line of one feed

A `Line` is a feed with everything that decides what becomes of its bytes: who claims its slots,
what the producer may write, and the ledger.  Everything that happens to a feed is a `Line.Step`, and
three invariants survive each of them.

* `Orderly`: the shape of the handshake, and whose each slot is.
* `Sized`: the sizes, and that silence is silent.
* `Faithful`: the bytes are those of the ledger.
-/

namespace Playout

/-- A feed with its custody and its history. -/
structure Line where
  feed : Feed
  -- How many live pulls claim a slot.
  claims : Slot → Nat
  ledger : Ledger
  -- Whether a commit is under way: nothing is written any more.
  sealed : Bool
  -- The slot whose bytes the producer can write.
  lent : Option Slot

namespace Line

/-! ## 1. Steps -/

def claim (c : Slot → Nat) (s : Slot) : Slot → Nat := fun t => if t = s then c t + 1 else c t

def producerBytes (x : Line) : Nat :=
  if x.ledger.doubled.isSome then x.feed.bufferBytes / 2 else x.feed.bufferBytes

/-- The line over a handshake. -/
def move (x : Line) (h : Handshake) : Line := { x with feed := x.feed.setHandshake h }

/-- The content of the buffer being filled as a commit hands it over. -/
def widened (x : Line) : Bytes :=
  let b := x.feed.content x.feed.handshake.active
  match x.ledger.doubled with
  | none => b
  | some width => (b.first (x.feed.bufferBytes / 2)).duplicate width

/-- Other counters. -/
def count (x : Line) (c : Counters) : Line := { x with feed := { x.feed with counters := c } }

/-- A device that asked for `n` bytes gets a waiting slot. -/
def deliver (x : Line) (s : Slot) (n : Nat) : Line :=
  { x.move (x.feed.handshake.claimed s) with
    claims := claim x.claims s
    ledger := x.ledger.take
      (some ⟨n, (x.feed.content s).first (x.feed.grant n), x.feed.grant n⟩) }

/-- A device gets the slot of the last claim once more. -/
def replay (x : Line) : Line :=
  { x.move (x.feed.handshake.claimed x.feed.handshake.last) with
    claims := claim x.claims x.feed.handshake.last }

/-- A device gives a slot back, and `c` are the claims that are left. -/
def giveBack (x : Line) (s : Slot) (c : Slot → Nat) : Line :=
  { x.move (x.feed.handshake.giveBack s) with claims := c }

/-- The producer gets the active slot. -/
def borrow (x : Line) : Line :=
  { x.move (x.feed.handshake.setState x.feed.handshake.active .filling) with
    lent := some x.feed.handshake.active
    ledger := x.ledger.borrow ((x.feed.content x.feed.handshake.active).first x.producerBytes) }

def write (x : Line) (edits : List Edit) : Line :=
  { x with
    feed := x.feed.edit x.feed.handshake.active x.producerBytes edits
    ledger := x.ledger.write edits }

/-- A commit begins: the buffer gets its final content. -/
def commit (x : Line) : Line :=
  { x with
    feed := x.feed.setContent x.feed.handshake.active x.widened
    sealed := true }

/-- The sealed buffer is handed over. -/
def handOver (x : Line) : Line :=
  { x.move x.feed.handshake.handed with
    ledger := x.ledger.handOver
    sealed := false
    lent := none }

def settle (x : Line) : Line := { x with ledger := x.ledger.settle }

/-- The first commit is refused. -/
def discard (x : Line) : Line :=
  { x.move x.feed.handshake.cleared with
    ledger := x.ledger.refuse
    sealed := false
    lent := none }

def close (x : Line) : Line := { x with lent := none }

/-- Everything that happens to a feed. -/
inductive Step (x : Line) : Line → Prop where
  | count (c : Counters) : Step x (x.count c)
  | deliver (s : Slot) (n : Nat) (hgrant : x.feed.grant n ≠ 0)
      (hready : x.feed.handshake.state s = .ready) : Step x (x.deliver s n)
  | replay (hnone : ∀ s, x.feed.handshake.state s ≠ .ready)
      (hempty : x.feed.handshake.state x.feed.handshake.last = .empty) : Step x x.replay
  | giveBack (s : Slot) (c : Slot → Nat) (hclaims : x.claims = claim c s) :
      Step x (x.giveBack s c)
  | borrow (hsealed : x.sealed = false)
      (hfillable : x.feed.handshake.state x.feed.handshake.active = .empty ∨
        x.feed.handshake.state x.feed.handshake.active = .filling) : Step x x.borrow
  | write (edits : List Edit) (hsealed : x.sealed = false) (hlent : x.lent ≠ none) :
      Step x (x.write edits)
  | commit (hsealed : x.sealed = false)
      (hfilling : x.feed.handshake.state x.feed.handshake.active = .filling) : Step x x.commit
  | handOver (hsealed : x.sealed = true) (hsibling : x.feed.handshake.siblingReady = false) :
      Step x x.handOver
  | settle : Step x x.settle
  | discard (hsealed : x.sealed = true) (hopened : x.ledger.handed = []) : Step x x.discard
  | close (hsealed : x.sealed = false) : Step x x.close

/-! ## 2. Whose each slot is -/

/-- The shape of the handshake, and whose each slot is. -/
structure Orderly (x : Line) : Prop where
  shaped : x.feed.handshake.Shaped
  -- With two slots a waiting one is never the active one.
  ready_inactive : x.feed.handshake.double = true →
    ∀ s, x.feed.handshake.state s = .ready → s ≠ x.feed.handshake.active
  -- A slot that is being read has exactly one reader, any other slot has none.
  custody : ∀ s, x.claims s = if x.feed.handshake.state s = .consumed then 1 else 0
  -- Before the first hand-over only the first slot is in use.
  unstarted : x.ledger.handed = [] → x.feed.handshake.active = .a ∧ x.feed.handshake.last = .a ∧
    x.feed.handshake.state .b = .empty ∧ x.feed.handshake.state .a ≠ .ready
  lent_filling : ∀ s, x.lent = some s →
    s = x.feed.handshake.active ∧ x.feed.handshake.state s = .filling
  sealed_filling : x.sealed = true → x.feed.handshake.state x.feed.handshake.active = .filling

namespace Orderly

variable {x y : Line}

-- A slot that nobody reads has no reader.
theorem unclaimed (hx : x.Orderly) {s : Slot} (hs : x.feed.handshake.state s ≠ .consumed) :
    x.claims s = 0 := by
  rw [hx.custody, if_neg hs]

-- A slot with a reader is being read, and there is no second reader.
theorem consumed_of_claim (hx : x.Orderly) {s : Slot} {c : Slot → Nat}
    (hc : x.claims = claim c s) : x.feed.handshake.state s = .consumed ∧ c s = 0 := by
  have hclaims := hx.custody s
  rw [hc, claim, if_pos rfl] at hclaims
  split at hclaims
  next h => exact ⟨h, by omega⟩
  next => omega

theorem tidy (hx : x.Orderly) : x.feed.handshake.Tidy where
  toShaped := hx.shaped
  active_unready hd ha := hx.ready_inactive hd _ ha rfl

theorem ready_unique (hx : x.Orderly) {s t : Slot} (hs : x.feed.handshake.state s = .ready)
    (ht : x.feed.handshake.state t = .ready) : s = t :=
  hx.tidy.ready_unique hs ht

-- Back-pressure: where the sealed buffer may be handed over, nothing waits.
theorem none_ready (hx : x.Orderly) (hsealed : x.sealed = true)
    (hsibling : x.feed.handshake.siblingReady = false) (s : Slot) :
    x.feed.handshake.state s ≠ .ready :=
  hx.tidy.none_ready (hx.sealed_filling hsealed) hsibling s

-- A claim takes the slot from nobody else.
theorem custody_claimed (hx : x.Orderly) {s : Slot}
    (hs : x.feed.handshake.state s ≠ .consumed) (t : Slot) :
    claim x.claims s t = if (x.feed.handshake.claimed s).state t = .consumed then 1 else 0 := by
  rw [claim, Handshake.state_claimed]
  by_cases ht : t = s
  · rw [if_pos ht, if_pos ht, if_pos rfl, ht, hx.unclaimed hs]
  · rw [if_neg ht, if_neg ht, hx.custody]

theorem deliver (hx : x.Orderly) {s : Slot} (hready : x.feed.handshake.state s = .ready)
    (n : Nat) : (x.deliver s n).Orderly := by
  have hfree : x.feed.handshake.state s ≠ .filling := by simp [hready]
  constructor
  case shaped => exact hx.shaped.claimed (hx.shaped.ready_mem hready)
  case ready_inactive =>
    intro hd t ht
    refine hx.ready_inactive hd t ?_
    exact (Handshake.state_of_state_claimed (by decide) ht).2
  case custody => exact hx.custody_claimed (by simp [hready])
  case unstarted =>
    intro hnone
    obtain ⟨-, -, hb, ha⟩ := hx.unstarted hnone
    cases s with
    | a => exact absurd hready ha
    | b => simp [hb] at hready
  case lent_filling =>
    intro t ht
    obtain ⟨hactive, hfilling⟩ := hx.lent_filling t ht
    exact ⟨hactive, Handshake.state_claimed_of_state hfree hfilling⟩
  case sealed_filling =>
    intro hsealed
    exact Handshake.state_claimed_of_state hfree (hx.sealed_filling hsealed)

theorem replay (hx : x.Orderly) (hnone : ∀ s, x.feed.handshake.state s ≠ .ready)
    (hempty : x.feed.handshake.state x.feed.handshake.last = .empty) : x.replay.Orderly := by
  have hfree : x.feed.handshake.state x.feed.handshake.last ≠ .filling := by simp [hempty]
  constructor
  case shaped => exact hx.shaped.claimed hx.shaped.last_mem
  case ready_inactive =>
    intro hd t ht
    exact absurd (Handshake.state_of_state_claimed (by decide) ht).2 (hnone t)
  case custody => exact hx.custody_claimed (by simp [hempty])
  case unstarted =>
    intro hhanded
    obtain ⟨hactive, hlast, hb, -⟩ := hx.unstarted hhanded
    refine ⟨hactive, hlast, ?_, ?_⟩
    · show (x.feed.handshake.claimed x.feed.handshake.last).state .b = .empty
      rw [Handshake.state_claimed, hlast, if_neg (by decide), hb]
    · show (x.feed.handshake.claimed x.feed.handshake.last).state .a ≠ .ready
      rw [Handshake.state_claimed, hlast, if_pos rfl]
      decide
  case lent_filling =>
    intro t ht
    obtain ⟨hactive, hfilling⟩ := hx.lent_filling t ht
    exact ⟨hactive, Handshake.state_claimed_of_state hfree hfilling⟩
  case sealed_filling =>
    intro hsealed
    exact Handshake.state_claimed_of_state hfree (hx.sealed_filling hsealed)

theorem giveBack (hx : x.Orderly) {s : Slot} {c : Slot → Nat} (hclaims : x.claims = claim c s) :
    (x.giveBack s c).Orderly := by
  obtain ⟨hconsumed, hlast⟩ := hx.consumed_of_claim hclaims
  constructor
  case shaped => exact hx.shaped.giveBack s
  case ready_inactive =>
    intro hd t ht
    refine hx.ready_inactive hd t ?_
    exact Handshake.state_of_state_giveBack (by decide) ht
  case custody =>
    intro t
    show c t = if (x.feed.handshake.giveBack s).state t = .consumed then 1 else 0
    rw [Handshake.state_giveBack]
    by_cases ht : t = s
    · rw [ht, hlast, if_pos rfl]
      rfl
    · have hother := hx.custody t
      rw [hclaims, claim, if_neg ht] at hother
      rw [if_neg ht, hother]
  case unstarted =>
    intro hhanded
    obtain ⟨hactive, hlast, hb, -⟩ := hx.unstarted hhanded
    -- before the first hand-over only the first slot can have been claimed
    have ha' : s = .a := by
      cases s with
      | a => rfl
      | b => simp [hb] at hconsumed
    refine ⟨hactive, hlast, Handshake.state_giveBack_of_state hconsumed (by decide) hb, ?_⟩
    show (x.feed.handshake.giveBack s).state .a ≠ .ready
    rw [Handshake.state_giveBack, if_pos ha'.symm]
    decide
  case lent_filling =>
    intro t ht
    obtain ⟨hactive, hfilling⟩ := hx.lent_filling t ht
    exact ⟨hactive, Handshake.state_giveBack_of_state hconsumed (by decide) hfilling⟩
  case sealed_filling =>
    intro hsealed
    exact Handshake.state_giveBack_of_state hconsumed (by decide) (hx.sealed_filling hsealed)

theorem borrow (hx : x.Orderly)
    (hfillable : x.feed.handshake.state x.feed.handshake.active = .empty ∨
      x.feed.handshake.state x.feed.handshake.active = .filling) : x.borrow.Orderly := by
  have hstate : ∀ t, (x.feed.handshake.setState x.feed.handshake.active .filling).state t =
      if t = x.feed.handshake.active then .filling else x.feed.handshake.state t :=
    fun t => Handshake.state_setState _ _ t _
  constructor
  case shaped => exact hx.shaped.setFilling
  case ready_inactive =>
    intro hd t ht
    refine hx.ready_inactive hd t ?_
    replace ht := (hstate t).symm.trans ht
    split at ht
    next => cases ht
    next => exact ht
  case custody =>
    intro t
    show x.claims t = if (x.feed.handshake.setState _ .filling).state t = .consumed then 1 else 0
    rw [hstate]
    by_cases ht : t = x.feed.handshake.active
    · rw [if_pos ht, ht]
      apply hx.unclaimed
      rcases hfillable with h | h <;> simp [h]
    · rw [if_neg ht, hx.custody]
  case unstarted =>
    intro hhanded
    obtain ⟨hactive, hlast, hb, -⟩ := hx.unstarted hhanded
    refine ⟨hactive, hlast, ?_, ?_⟩
    · exact (hstate .b).trans (by rw [hactive, if_neg (by decide), hb])
    · show (x.feed.handshake.setState _ .filling).state .a ≠ .ready
      rw [hstate, hactive, if_pos rfl]
      decide
  case lent_filling =>
    rintro t ht
    cases ht
    exact ⟨rfl, (hstate _).trans (if_pos rfl)⟩
  case sealed_filling =>
    intro _
    exact (hstate _).trans (if_pos rfl)

theorem handOver (hx : x.Orderly) (hsealed : x.sealed = true)
    (hsibling : x.feed.handshake.siblingReady = false) : x.handOver.Orderly := by
  have hfilling := hx.sealed_filling hsealed
  constructor
  case shaped => exact hx.shaped.handed
  case ready_inactive =>
    rintro hd t ht rfl
    exact (hx.tidy.handed hsibling).active_unready hd ht
  case custody =>
    intro t
    show x.claims t = if x.feed.handshake.handed.state t = .consumed then 1 else 0
    rw [Handshake.state_handed]
    by_cases ht : t = x.feed.handshake.active
    · rw [if_pos ht, ht, hx.unclaimed (by simp [hfilling])]
      rfl
    · rw [if_neg ht, hx.custody]
  case unstarted =>
    intro hhanded
    exact absurd hhanded (List.append_ne_nil_of_right_ne_nil _ (by simp))
  case lent_filling =>
    intro t ht
    cases ht
  case sealed_filling =>
    intro h
    cases h

theorem discard (hx : x.Orderly) (hsealed : x.sealed = true) (hopened : x.ledger.handed = []) :
    x.discard.Orderly := by
  obtain ⟨hactive, -, hb, -⟩ := hx.unstarted hopened
  have hfilling := hx.sealed_filling hsealed
  have hstate : ∀ t, x.feed.handshake.cleared.state t = .empty :=
    Handshake.state_initial x.feed.handshake.double
  constructor
  case shaped => exact .initial _
  case ready_inactive =>
    intro hd t ht
    simp [Line.discard, move, hstate] at ht
  case custody =>
    intro t
    show x.claims t = if x.feed.handshake.cleared.state t = .consumed then 1 else 0
    rw [hstate, if_neg (by decide)]
    -- clearing takes no slot from a reader: the first is being filled, the second was never used
    apply hx.unclaimed
    cases t with
    | a =>
      rw [hactive] at hfilling
      simp [hfilling]
    | b => simp [hb]
  case unstarted =>
    intro _
    exact ⟨rfl, rfl, hstate .b, by simp [Line.discard, move, hstate]⟩
  case lent_filling =>
    intro t ht
    cases ht
  case sealed_filling =>
    intro h
    cases h

theorem step (hx : x.Orderly) (h : x.Step y) : y.Orderly := by
  cases h with
  | count c =>
    exact ⟨hx.shaped, hx.ready_inactive, hx.custody, hx.unstarted, hx.lent_filling,
      hx.sealed_filling⟩
  | deliver s n hgrant hready => exact hx.deliver hready n
  | replay hnone hempty => exact hx.replay hnone hempty
  | giveBack s c hclaims => exact hx.giveBack hclaims
  | borrow hsealed hfillable => exact hx.borrow hfillable
  | write edits hsealed hlent =>
    exact ⟨hx.shaped, hx.ready_inactive, hx.custody, hx.unstarted, hx.lent_filling,
      hx.sealed_filling⟩
  | commit hsealed hfilling =>
    exact ⟨hx.shaped, hx.ready_inactive, hx.custody, hx.unstarted, hx.lent_filling,
      fun _ => hfilling⟩
  | handOver hsealed hsibling => exact hx.handOver hsealed hsibling
  | settle =>
    exact ⟨hx.shaped, hx.ready_inactive, hx.custody, hx.unstarted, hx.lent_filling,
      hx.sealed_filling⟩
  | discard hsealed hopened => exact hx.discard hsealed hopened
  | close hsealed =>
    refine ⟨hx.shaped, hx.ready_inactive, hx.custody, hx.unstarted, ?_, hx.sealed_filling⟩
    intro t ht
    cases ht

end Orderly

end Line

end Playout

import Mathlib.Algebra.GroupWithZero.Nat
import Playout.Proofs.Crew
import Playout.Proofs.Feed

/-!
# Rounds beside each other

What one step of a worker does to the feeds, to the counts and to what is told, while other workers
are somewhere in their rounds.

* `Custody`: each claimed slot belongs to one worker, and what it shows does not change.
* `Balanced`: the counters are right but for what the workers inside a round still owe.
* `Chronicle`: each worker has recorded what it pulled, in this order, but for what it holds.
-/

namespace Playout

namespace Simulator

variable {feeds : Nat → Feed} {a : Hand} {as rest : List Hand} {k : Nat}

/-! ## 1. Custody -/

/-- A pull that delivered still shows what it did, all of it fresh. -/
structure Shown (f : Feed) (x : Held) : Prop where
  read : f.read x.pull = x.data
  size : x.data.size = x.pull.delivered
  claimed : x.pull.claimed = none → x.pull.length = 0

/-- What the workers hold. -/
structure Custody (feeds : Nat → Feed) (as : List Hand) : Prop where
  uniform : ∀ k, (feeds k).Uniform
  nodup : (as.filterMap Hand.claim?).Nodup
  consumed : ∀ c ∈ as.filterMap Hand.claim?, (feeds c.1).handshake.state c.2 = .consumed
  shown : ∀ a ∈ as, ∀ x, a.stage.held? = some x → x.pull.isUnderrun = false →
    Shown (feeds a.feed) x

theorem Shown.of_content {f f' : Feed} {x : Held} (h : Shown f x)
    (hcontent : ∀ s, x.pull.claimed = some s → f'.content s = f.content s) : Shown f' x where
  read := by
    rw [← h.read]
    unfold Feed.read
    split
    next s hs => rw [hcontent s hs]
    next hs => simp [h.claimed hs, Bytes.first]
  size := h.size
  claimed := h.claimed

theorem claim?_eq_some {x : Held} {s : Slot} (hx : a.stage.held? = some x)
    (hs : x.pull.claimed = some s) : a.claim? = some (a.feed, s) := by
  simp [Hand.claim?, hx, hs]

theorem claim?_of_resting (ha : a.stage = .resting) : a.claim? = none := by
  simp [Hand.claim?, ha, Stage.held?]

namespace Custody

theorem perm (h : Custody feeds as) {bs : List Hand} (hperm : bs.Perm as) : Custody feeds bs where
  uniform := h.uniform
  nodup := (hperm.filterMap _).nodup_iff.mpr h.nodup
  consumed c hc := h.consumed c ((hperm.filterMap _).mem_iff.mp hc)
  shown a ha := h.shown a (hperm.mem_iff.mp ha)

theorem tail (h : Custody feeds (a :: rest)) : Custody feeds rest where
  uniform := h.uniform
  nodup := h.nodup.sublist ((List.sublist_cons_self a rest).filterMap _)
  consumed c hc := h.consumed c (((List.sublist_cons_self a rest).filterMap _).mem hc)
  shown b hb := h.shown b (List.mem_cons_of_mem a hb)

theorem cons (h : Custody feeds rest)
    (hclaim : ∀ c, a.claim? = some c → c ∉ rest.filterMap Hand.claim? ∧
      (feeds c.1).handshake.state c.2 = .consumed)
    (hshown : ∀ x, a.stage.held? = some x → x.pull.isUnderrun = false → Shown (feeds a.feed) x) :
    Custody feeds (a :: rest) where
  uniform := h.uniform
  nodup := by
    rw [List.filterMap_cons]
    split
    next => exact h.nodup
    next c hc => exact List.nodup_cons.mpr ⟨(hclaim c hc).1, h.nodup⟩
  consumed c hc := by
    rw [List.filterMap_cons] at hc
    split at hc
    next => exact h.consumed c hc
    next c' hc' =>
      obtain rfl | hc := List.mem_cons.mp hc
      · exact (hclaim c hc').2
      · exact h.consumed c hc
  shown b hb := by
    obtain rfl | hb := List.mem_cons.mp hb
    · exact hshown
    · exact h.shown b hb

theorem cons_resting (h : Custody feeds rest) (ha : a.stage = .resting) :
    Custody feeds (a :: rest) :=
  h.cons (fun c hc => by rw [claim?_of_resting ha] at hc; cases hc)
    (fun x hx => by rw [ha] at hx; cases hx)

-- A worker that goes on holding what it holds.
theorem reach (h : Custody feeds (a :: rest)) {g : Stage} (hg : g.held? = a.stage.held?) :
    Custody feeds (a.reach g :: rest) := by
  have hclaim : (a.reach g).claim? = a.claim? := by simp [Hand.claim?, Hand.reach, hg]
  have hnodup := h.nodup
  refine h.tail.cons (fun c hc => ?_) fun x hx => h.shown a List.mem_cons_self x (hg ▸ hx)
  rw [hclaim] at hc
  rw [List.filterMap_cons, hc] at hnodup
  exact ⟨(List.nodup_cons.mp hnodup).1, h.consumed c (by simp [hc])⟩

/-- A feed changes where no worker holds anything. -/
theorem update (h : Custody feeds as) {f : Feed} (hf : f.Uniform)
    (hkeep : ∀ c ∈ as.filterMap Hand.claim?, c.1 = k →
      f.handshake.state c.2 = .consumed ∧ f.content c.2 = (feeds k).content c.2) :
    Custody (Function.update feeds k f) as where
  uniform j := by
    by_cases hj : j = k
    · subst hj
      rwa [Function.update_self]
    · rw [Function.update_of_ne hj]
      exact h.uniform j
  nodup := h.nodup
  consumed c hc := by
    by_cases hk : c.1 = k
    · rw [hk, Function.update_self]
      exact (hkeep c hc hk).1
    · rw [Function.update_of_ne hk]
      exact h.consumed c hc
  shown a ha x hx hdelivers := by
    refine (h.shown a ha x hx hdelivers).of_content fun s hs => ?_
    by_cases hk : a.feed = k
    · rw [hk, Function.update_self]
      exact (hkeep (a.feed, s) (List.mem_filterMap.mpr ⟨a, ha, claim?_eq_some hx hs⟩) hk).2
    · rw [Function.update_of_ne hk]

end Custody

-- A pull finds no slot that is being read, and leaves those alone.
theorem consumed_pull (f : Feed) (n : Nat) {s : Slot} (hs : f.handshake.state s = .consumed) :
    (f.pull n).2.handshake.state s = .consumed ∧ (f.pull n).1.claimed ≠ some s := by
  have hpull := f.pulled n
  generalize f.pull n = r at hpull
  cases hpull with
  | nothing | silent => exact ⟨hs, nofun⟩
  | delivered t hgrant hmem hready =>
    refine ⟨?_, ?_⟩
    · show (f.handshake.claimed t).state s = .consumed
      rw [Handshake.state_claimed, hs, ite_self]
    · rintro ⟨⟩
      rw [hready] at hs
      cases hs
  | replayed hgrant hnone hfallback hempty =>
    refine ⟨?_, ?_⟩
    · show (f.handshake.claimed f.handshake.last).state s = .consumed
      rw [Handshake.state_claimed, hs, ite_self]
    · rintro ⟨⟩
      rw [hempty] at hs
      cases hs

theorem consumed_of_pull (f : Feed) (n : Nat) {s : Slot} (hs : (f.pull n).1.claimed = some s) :
    (f.pull n).2.handshake.state s = .consumed := by
  have hpull := f.pulled n
  generalize f.pull n = r at hpull hs
  cases hpull with
  | nothing | silent => cases hs
  | delivered t =>
    cases hs
    show (f.handshake.claimed s).state s = .consumed
    rw [Handshake.state_claimed, if_pos rfl]
  | replayed =>
    cases hs
    show (f.handshake.claimed f.handshake.last).state f.handshake.last = .consumed
    rw [Handshake.state_claimed, if_pos rfl]

theorem shown_pull (f : Feed) (n : Nat) (hf : f.Uniform)
    (hdelivers : (f.pull n).1.isUnderrun = false) :
    Shown (f.pull n).2 ⟨(f.pull n).1, (f.pull n).2.read (f.pull n).1⟩ := by
  have hpull := f.pulled n
  generalize f.pull n = r at hpull hdelivers
  cases hpull with
  | nothing => exact ⟨rfl, by simp [Feed.read, Pull.silence], fun _ => rfl⟩
  | delivered s hgrant hmem =>
    refine ⟨rfl, ?_, nofun⟩
    show ((f.content s).first (f.grant n)).size = f.grant n
    rw [Bytes.size_first, hf s hmem]
    exact Nat.min_eq_left (f.grant_le n)
  | replayed hgrant | silent hgrant =>
    simp [Pull.isUnderrun, Pull.silence, hgrant] at hdelivers

theorem uniform_of_touched {f f' : Feed} (hf : f.Uniform) (hsame : Feed.SameBytes f f')
    (htouched : f.handshake.Touched f'.handshake) : f'.Uniform := by
  intro s hs
  rw [Handshake.members, htouched.double] at hs
  rw [hsame.content, hsame.bufferBytes]
  exact hf s hs

namespace Custody

theorem pulled (h : Custody feeds (a :: rest)) (n : Nat) :
    let r := (feeds a.feed).pull n
    Custody (Function.update feeds a.feed r.2) (a.reach (.pulled ⟨r.1, r.2.read r.1⟩) :: rest) := by
  intro r
  have hsame : Feed.SameBytes (feeds a.feed) r.2 := (feeds a.feed).sameBytes_pull n
  have huniform : r.2.Uniform :=
    uniform_of_touched (h.uniform a.feed) hsame ((feeds a.feed).touched_pull n)
  have hothers := h.tail.update huniform fun c hc hk =>
    ⟨(consumed_pull _ n (hk ▸ h.tail.consumed c hc)).1, hsame.content c.2⟩
  refine hothers.cons (fun c hc => ?_) fun x hx hdelivers => ?_
  · -- the slot that was free before nobody else has claimed
    obtain ⟨s, hs, rfl⟩ := Option.map_eq_some_iff.mp hc
    refine ⟨fun hmem => (consumed_pull _ n (h.tail.consumed _ hmem)).2 hs, ?_⟩
    show (Function.update feeds a.feed r.2 a.feed).handshake.state s = .consumed
    rw [Function.update_self]
    exact consumed_of_pull _ n hs
  · cases hx
    show Shown (Function.update feeds a.feed r.2 a.feed) _
    rw [Function.update_self]
    exact shown_pull _ n (h.uniform a.feed) hdelivers

/-- What a worker holds can be dropped. -/
theorem drop_ok (h : Custody feeds as) (ha : a ∈ as) {x : Held} (hx : a.stage.held? = some x) :
    ∃ f, (feeds a.feed).drop x.pull = .ok f :=
  Feed.drop_ok fun s hs =>
    h.consumed (a.feed, s) (List.mem_filterMap.mpr ⟨a, ha, claim?_eq_some hx hs⟩)

theorem dropped (h : Custody feeds (a :: rest)) {x : Held} (hx : a.stage.held? = some x) {f : Feed}
    (hf : (feeds a.feed).drop x.pull = .ok f) :
    Custody (Function.update feeds a.feed f) (a.reach .resting :: rest) := by
  have hsame := Feed.sameBytes_drop hf
  have huniform := uniform_of_touched (h.uniform a.feed) hsame (Feed.touched_drop hf)
  refine (h.tail.update huniform fun c hc hk => ⟨?_, hsame.content c.2⟩).cons_resting rfl
  have hconsumed := hk ▸ h.tail.consumed c hc
  obtain ⟨-, rfl⟩ | ⟨s, hs, -, rfl⟩ := Feed.drop_eq_ok hf
  · exact hconsumed
  · -- the slot given back is not one that another worker has claimed
    have hnodup := h.nodup
    rw [List.filterMap_cons, claim?_eq_some hx hs] at hnodup
    have hne : c.2 ≠ s := by
      rintro rfl
      exact (List.nodup_cons.mp hnodup).1 (hk ▸ hc)
    rw [Feed.handshake_setHandshake, Handshake.giveBack, Handshake.state_setState, if_neg hne]
    exact hconsumed

end Custody

/-! ## 2. Counts -/

/-- How many pulls of a worker are counted, but neither as underruns nor by what is recorded. -/
def Stage.owed : Stage → Nat
  | .counted _ | .measured _ _ => 1
  | .resting | .pulled _ | .settled _ => 0

/-- How many bytes of a worker are counted but not recorded. -/
def Stage.owedBytes : Stage → Nat
  | .measured x _ => x.pull.delivered
  | .resting | .pulled _ | .counted _ | .settled _ => 0

def totalSize (tape : Array Bytes) : Nat := (tape.toList.map Array.size).sum

/-- The counters, but for what is owed. -/
structure Balanced (m : Monitor) (tape : Array Bytes) (as : List Hand) : Prop where
  pulls : m.pulls =
    m.underruns + UInt64.ofNat (tape.size + (as.map (·.stage.owed)).sum)
  bytes : m.deliveredBytes =
    UInt64.ofNat (totalSize tape + (as.map (·.stage.owedBytes)).sum)

namespace Balanced

variable {m : Monitor} {tape : Array Bytes} {x : Held}

theorem perm (h : Balanced m tape as) {bs : List Hand} (hperm : bs.Perm as) :
    Balanced m tape bs where
  pulls := by rw [(hperm.map _).sum_nat, h.pulls]
  bytes := by rw [(hperm.map _).sum_nat, h.bytes]

theorem cons_resting_iff (ha : a.stage = .resting) :
    Balanced m tape (a :: rest) ↔ Balanced m tape rest := by
  have hpulls : ((a :: rest).map (·.stage.owed)).sum = (rest.map (·.stage.owed)).sum := by
    simp [ha, Stage.owed]
  have hbytes : ((a :: rest).map (·.stage.owedBytes)).sum = (rest.map (·.stage.owedBytes)).sum := by
    simp [ha, Stage.owedBytes]
  constructor
  · exact fun h => ⟨hpulls ▸ h.pulls, hbytes ▸ h.bytes⟩
  · exact fun h => ⟨hpulls.symm ▸ h.pulls, hbytes.symm ▸ h.bytes⟩

-- A step that is no matter of the counters.
theorem reach (h : Balanced m tape (a :: rest)) {g : Stage} (hg : g.owed = a.stage.owed)
    (hbytes : g.owedBytes = a.stage.owedBytes) : Balanced m tape (a.reach g :: rest) where
  pulls := by
    rw [h.pulls, List.map_cons, List.map_cons, ← hg]
    rfl
  bytes := by
    rw [h.bytes, List.map_cons, List.map_cons, ← hbytes]
    rfl

theorem counted (h : Balanced m tape (a :: rest)) (ha : a.stage = .pulled x) :
    Balanced { m with pulls := m.pulls + 1 } tape (a.reach (.counted x) :: rest) where
  pulls := by
    have hpulls := h.pulls
    simp only [List.map_cons, List.sum_cons, ha, Stage.owed, Hand.reach, UInt64.ofNat_add] at *
    rw [hpulls]
    grind
  bytes := by
    rw [h.bytes, List.map_cons, List.map_cons, ha]
    rfl

theorem missed (h : Balanced m tape (a :: rest)) (ha : a.stage = .counted x) :
    Balanced { m with underruns := m.underruns + 1 } tape (a.reach (.settled x) :: rest) where
  pulls := by
    have hpulls := h.pulls
    simp only [List.map_cons, List.sum_cons, ha, Stage.owed, Hand.reach, UInt64.ofNat_add] at *
    rw [hpulls]
    grind
  bytes := by
    rw [h.bytes, List.map_cons, List.map_cons, ha]
    rfl

theorem measured (h : Balanced m tape (a :: rest)) (ha : a.stage = .counted x)
    (hdelivers : x.pull.isUnderrun = false) :
    Balanced { m with deliveredBytes := m.deliveredBytes + UInt64.ofNat x.pull.delivered } tape
      (a.reach (.measured x hdelivers) :: rest) where
  pulls := by
    rw [h.pulls, List.map_cons, List.map_cons, ha]
    rfl
  bytes := by
    have hbytes := h.bytes
    simp only [List.map_cons, List.sum_cons, ha, Stage.owedBytes, Hand.reach, UInt64.ofNat_add] at *
    rw [hbytes]
    grind

theorem recorded (h : Balanced m tape (a :: rest)) {hdelivers : x.pull.isUnderrun = false}
    (ha : a.stage = .measured x hdelivers) {data : Bytes} (hdata : data.size = x.pull.delivered) :
    Balanced m (tape.push data) (a.reach (.settled x) :: rest) where
  pulls := by
    have hpulls := h.pulls
    simp only [List.map_cons, List.sum_cons, ha, Stage.owed, Hand.reach, Array.size_push] at *
    rw [hpulls]
    grind
  bytes := by
    have hbytes := h.bytes
    simp only [List.map_cons, List.sum_cons, ha, Stage.owedBytes, Hand.reach, totalSize,
      Array.toList_push, List.map_append, List.sum_append, List.map_nil, List.sum_nil, hdata] at *
    rw [hbytes]
    grind

end Balanced

/-! ## 3. Notes -/

/-- What a worker has been given but has not recorded. -/
def Stage.pending : Stage → List Bytes
  | .pulled x | .counted x => if x.pull.isUnderrun then [] else [x.data]
  | .measured x _ => [x.data]
  | .resting | .settled _ => []

namespace Note

def worker? : Note → Option Nat
  | .started w _ | .pulled w _ _ _ | .recorded w _ | .left w => some w
  | .fault _ => none

def recorded? : Note → Option Bytes
  | .recorded _ data => some data
  | .started _ _ | .pulled _ _ _ _ | .left _ | .fault _ => none

/-- What that worker recorded. -/
def recordedBy? (w : Nat) : Note → Option Bytes
  | .recorded w' data => if w' = w then some data else none
  | .started _ _ | .pulled _ _ _ _ | .left _ | .fault _ => none

/-- What a pull of that worker showed, unless it found nothing committed. -/
def deliveredTo? (w : Nat) : Note → Option Bytes
  | .pulled w' _ p data => if w' = w ∧ p.isUnderrun = false then some data else none
  | .started _ _ | .recorded _ _ | .left _ | .fault _ => none

end Note

/-- A worker that is gone does not pull. -/
def Retires (n n' : Note) : Prop := ∀ w k p data, n = .left w → n' ≠ .pulled w k p data

/-- Who the workers are.  Their numbers are given out one after the other, and each pulls from the
feed that it was started with. -/
structure Roll (log : List Note) (hired : Nat) (as : List Hand) : Prop where
  nodup : (as.map (·.number)).Nodup
  lt : ∀ n ∈ log, ∀ w, n.worker? = some w → w < hired
  started : ∀ a ∈ as, .started a.number a.feed ∈ log
  stays : ∀ a ∈ as, .left a.number ∉ log
  source : ∀ w k p data, .pulled w k p data ∈ log → .started w k ∈ log
  once : ∀ w k k', .started w k ∈ log → .started w k' ∈ log → k = k'
  retires : log.Pairwise Retires
  sound : ∀ d, .fault d ∉ log

/-- What the workers have recorded, and what they still have to record. -/
structure Chronicle (log : List Note) (tape : Array Bytes) (as : List Hand) : Prop where
  tape : tape.toList = log.filterMap Note.recorded?
  busy : ∀ a ∈ as,
    log.filterMap (Note.recordedBy? a.number) ++ a.stage.pending =
      log.filterMap (Note.deliveredTo? a.number)
  gone : ∀ w, (∀ a ∈ as, a.number ≠ w) →
    log.filterMap (Note.recordedBy? w) = log.filterMap (Note.deliveredTo? w)

variable {log : List Note} {hired : Nat}

namespace Roll

theorem perm (h : Roll log hired as) {bs : List Hand} (hperm : bs.Perm as) : Roll log hired bs where
  nodup := (hperm.map _).nodup_iff.mpr h.nodup
  lt := h.lt
  started a ha := h.started a (hperm.mem_iff.mp ha)
  stays a ha := h.stays a (hperm.mem_iff.mp ha)
  source := h.source
  once := h.once
  retires := h.retires
  sound := h.sound

theorem tail (h : Roll log hired (a :: rest)) : Roll log hired rest where
  nodup := (List.nodup_cons.mp h.nodup).2
  lt := h.lt
  started b hb := h.started b (List.mem_cons_of_mem a hb)
  stays b hb := h.stays b (List.mem_cons_of_mem a hb)
  source := h.source
  once := h.once
  retires := h.retires
  sound := h.sound

theorem reach (h : Roll log hired (a :: rest)) (g : Stage) :
    Roll log hired (a.reach g :: rest) where
  nodup := h.nodup
  lt := h.lt
  started b hb := by
    obtain rfl | hb := List.mem_cons.mp hb
    · exact h.started a List.mem_cons_self
    · exact h.tail.started b hb
  stays b hb := by
    obtain rfl | hb := List.mem_cons.mp hb
    · exact h.stays a List.mem_cons_self
    · exact h.tail.stays b hb
  source := h.source
  once := h.once
  retires := h.retires
  sound := h.sound

theorem number_lt (h : Roll log hired as) (ha : a ∈ as) : a.number < hired :=
  h.lt _ (h.started a ha) _ rfl

/-- Something is told of a worker that is there. -/
theorem tell (h : Roll log hired as) {n : Note}
    (hworker : ∃ b : Hand, n.worker? = some b.number ∧ .started b.number b.feed ∈ log)
    (hstarted : ∀ w k, n ≠ .started w k) (hleft : ∀ a ∈ as, n ≠ .left a.number)
    (hpulled : ∀ w k p data, n = .pulled w k p data → .started w k ∈ log ∧ .left w ∉ log) :
    Roll (log ++ [n]) hired as where
  nodup := h.nodup
  lt m hm w hw := by
    obtain hm | hm := List.mem_append.mp hm
    · exact h.lt m hm w hw
    · obtain rfl := List.mem_singleton.mp hm
      obtain ⟨a, ha, hmem⟩ := hworker
      exact Option.some.inj (ha.symm.trans hw) ▸ h.lt _ hmem _ rfl
  started a ha := List.mem_append_left _ (h.started a ha)
  stays a ha hm := by
    obtain hm | hm := List.mem_append.mp hm
    · exact h.stays a ha hm
    · exact hleft a ha (List.mem_singleton.mp hm).symm
  source w k p data hm := by
    obtain hm | hm := List.mem_append.mp hm
    · exact List.mem_append_left _ (h.source w k p data hm)
    · exact List.mem_append_left _ (hpulled w k p data (List.mem_singleton.mp hm).symm).1
  once w k k' hm hm' := by
    have hold : ∀ j, Note.started w j ∈ log ++ [n] → Note.started w j ∈ log := fun j hj => by
      obtain hj | hj := List.mem_append.mp hj
      · exact hj
      · exact absurd (List.mem_singleton.mp hj).symm (hstarted w j)
    exact h.once w k k' (hold k hm) (hold k' hm')
  retires := by
    refine List.pairwise_append.mpr ⟨h.retires, List.pairwise_singleton _ _, ?_⟩
    rintro m hm _ hn w k p data rfl rfl
    exact (hpulled w k p data (List.mem_singleton.mp hn).symm).2 hm
  sound d hm := by
    obtain hm | hm := List.mem_append.mp hm
    · exact h.sound d hm
    · obtain ⟨a, ha, -⟩ := hworker
      obtain rfl := List.mem_singleton.mp hm
      cases ha

theorem hire (h : Roll log hired as) (hnumber : a.number = hired) :
    Roll (log ++ [.started a.number a.feed]) (hired + 1) (a :: as) := by
  -- the number is new
  have hnew : ∀ n ∈ log, n.worker? ≠ some a.number := fun n hn hw =>
    Nat.lt_irrefl _ (hnumber ▸ h.lt n hn _ hw)
  constructor
  case nodup =>
    refine List.nodup_cons.mpr ⟨fun hmem => ?_, h.nodup⟩
    obtain ⟨b, hb, hsame⟩ := List.mem_map.mp hmem
    exact Nat.lt_irrefl _ (hnumber ▸ hsame ▸ h.number_lt hb)
  case lt =>
    intro n hn w hw
    obtain hn | hn := List.mem_append.mp hn
    · exact Nat.lt_succ_of_lt (h.lt n hn w hw)
    · obtain rfl := List.mem_singleton.mp hn
      cases hw
      exact hnumber ▸ Nat.lt_succ_self _
  case started =>
    intro b hb
    obtain rfl | hb := List.mem_cons.mp hb
    · exact List.mem_append_right _ (List.mem_singleton.mpr rfl)
    · exact List.mem_append_left _ (h.started b hb)
  case stays =>
    intro b hb hm
    have hold : Note.left b.number ∈ log := by simpa using hm
    obtain rfl | hb := List.mem_cons.mp hb
    · exact hnew (.left b.number) hold rfl
    · exact h.stays b hb hold
  case source =>
    intro w k p data hm
    exact List.mem_append_left _ (h.source w k p data (by simpa using hm))
  case once =>
    intro w k k' hm hm'
    simp only [List.mem_append, List.mem_singleton, Note.started.injEq] at hm hm'
    obtain hm | ⟨rfl, rfl⟩ := hm <;> obtain hm' | ⟨hw, rfl⟩ := hm'
    · exact h.once w k k' hm hm'
    · exact absurd (hw ▸ rfl) (hnew _ hm)
    · exact absurd rfl (hnew _ hm')
    · rfl
  case retires =>
    refine List.pairwise_append.mpr ⟨h.retires, List.pairwise_singleton _ _, ?_⟩
    rintro m - n hn w k p data - rfl
    cases List.mem_singleton.mp hn
  case sound =>
    intro d hm
    exact h.sound d (by simpa using hm)

theorem leave (h : Roll log hired (a :: rest)) : Roll (log ++ [.left a.number]) hired rest := by
  refine h.tail.tell ⟨a, rfl, h.started a List.mem_cons_self⟩ nofun (fun b hb hsame => ?_) nofun
  exact (List.nodup_cons.mp h.nodup).1 (List.mem_map.mpr ⟨b, hb, (Note.left.inj hsame).symm⟩)

theorem pulled (h : Roll log hired (a :: rest)) (p : Pull) (data : Bytes) :
    Roll (log ++ [.pulled a.number a.feed p data]) hired (a :: rest) := by
  have hstarted := h.started a List.mem_cons_self
  refine h.tell ⟨a, rfl, hstarted⟩ nofun nofun ?_
  rintro w k p' data' ⟨⟩
  exact ⟨hstarted, h.stays a List.mem_cons_self⟩

theorem recorded (h : Roll log hired (a :: rest)) (data : Bytes) :
    Roll (log ++ [.recorded a.number data]) hired (a :: rest) :=
  h.tell ⟨a, rfl, h.started a List.mem_cons_self⟩ nofun nofun nofun

end Roll

namespace Chronicle

variable {tape : Array Bytes} {x : Held}

theorem perm (h : Chronicle log tape as) {bs : List Hand} (hperm : bs.Perm as) :
    Chronicle log tape bs where
  tape := h.tape
  busy a ha := h.busy a (hperm.mem_iff.mp ha)
  gone w hw := h.gone w fun a ha => hw a (hperm.mem_iff.mpr ha)

-- A note that is no matter of what is recorded.
theorem tell (h : Chronicle log tape as) {n : Note} (hrecorded : n.recorded? = none)
    (hby : ∀ w, n.recordedBy? w = none) (hto : ∀ w, n.deliveredTo? w = none) :
    Chronicle (log ++ [n]) tape as where
  tape := by simp [h.tape, List.filterMap_append, hrecorded]
  busy a ha := by simp [← h.busy a ha, List.filterMap_append, hby, hto]
  gone w hw := by simp [← h.gone w hw, List.filterMap_append, hby, hto]

theorem reach (h : Chronicle log tape (a :: rest)) {g : Stage} (hg : g.pending = a.stage.pending) :
    Chronicle log tape (a.reach g :: rest) where
  tape := h.tape
  busy b hb := by
    obtain rfl | hb := List.mem_cons.mp hb
    · exact hg ▸ h.busy a List.mem_cons_self
    · exact h.busy b (List.mem_cons_of_mem a hb)
  gone w hw := by
    refine h.gone w fun b hb => ?_
    obtain rfl | hb := List.mem_cons.mp hb
    · exact hw (b.reach g) List.mem_cons_self
    · exact hw b (List.mem_cons_of_mem _ hb)

theorem cons_resting (h : Chronicle log tape rest) (ha : a.stage = .resting)
    (hnew : ∀ b ∈ rest, b.number ≠ a.number) : Chronicle log tape (a :: rest) where
  tape := h.tape
  busy b hb := by
    obtain rfl | hb := List.mem_cons.mp hb
    · rw [ha, Stage.pending, List.append_nil]
      exact h.gone b.number hnew
    · exact h.busy b hb
  gone w hw := h.gone w fun b hb => hw b (List.mem_cons_of_mem a hb)

theorem tail (h : Chronicle log tape (a :: rest)) (ha : a.stage = .resting) :
    Chronicle log tape rest where
  tape := h.tape
  busy b hb := h.busy b (List.mem_cons_of_mem a hb)
  gone w hw := by
    by_cases hwa : a.number = w
    · have hbusy := h.busy a List.mem_cons_self
      rwa [ha, Stage.pending, List.append_nil, hwa] at hbusy
    · exact h.gone w fun b hb => by
        obtain rfl | hb := List.mem_cons.mp hb
        · exact hwa
        · exact hw b hb

-- Something is told of one worker, and it now stands where that is true of it.
theorem advance (h : Chronicle log tape (a :: rest)) (hnodup : ((a :: rest).map (·.number)).Nodup)
    {n : Note} {tape' : Array Bytes} {g : Stage}
    (htape : tape'.toList = tape.toList ++ (n.recorded?).toList)
    (hothers : ∀ w, w ≠ a.number → n.recordedBy? w = none ∧ n.deliveredTo? w = none)
    (hown : a.stage.pending ++ (n.deliveredTo? a.number).toList =
      (n.recordedBy? a.number).toList ++ g.pending) :
    Chronicle (log ++ [n]) tape' (a.reach g :: rest) := by
  have hsplit : ∀ f : Note → Option Bytes,
      (log ++ [n]).filterMap f = log.filterMap f ++ (f n).toList := fun f => by
    rw [List.filterMap_append]
    cases hf : f n <;> simp [hf]
  refine ⟨?_, fun b hb => ?_, fun w hw => ?_⟩
  · rw [htape, hsplit, h.tape]
  · obtain rfl | hb := List.mem_cons.mp hb
    · have hbusy := h.busy a List.mem_cons_self
      show (log ++ [n]).filterMap (Note.recordedBy? a.number) ++ g.pending =
        (log ++ [n]).filterMap (Note.deliveredTo? a.number)
      rw [hsplit, hsplit, List.append_assoc, ← hown, ← List.append_assoc, hbusy]
    · have hne : b.number ≠ a.number := fun hsame =>
        (List.nodup_cons.mp hnodup).1 (List.mem_map.mpr ⟨b, hb, hsame⟩)
      rw [hsplit, hsplit, (hothers _ hne).1, (hothers _ hne).2, Option.toList_none,
        List.append_nil, List.append_nil]
      exact h.busy b (List.mem_cons_of_mem a hb)
  · have hne : w ≠ a.number := fun hsame => hw (a.reach g) List.mem_cons_self hsame.symm
    rw [hsplit, hsplit, (hothers _ hne).1, (hothers _ hne).2]
    refine congrArg (· ++ _) (h.gone w fun b hb => ?_)
    obtain rfl | hb := List.mem_cons.mp hb
    · exact hne.symm
    · exact hw b (List.mem_cons_of_mem _ hb)

theorem pulled (h : Chronicle log tape (a :: rest)) (hnodup : ((a :: rest).map (·.number)).Nodup)
    (ha : a.stage = .resting) (p : Pull) (data : Bytes) :
    Chronicle (log ++ [.pulled a.number a.feed p data]) tape
      (a.reach (.pulled ⟨p, data⟩) :: rest) := by
  refine h.advance hnodup (by simp [Note.recorded?]) (fun w hw => ⟨rfl, ?_⟩) ?_
  · exact if_neg fun hsame => hw hsame.1.symm
  · rw [ha]
    cases hunderrun : p.isUnderrun <;>
      simp [Stage.pending, Note.deliveredTo?, Note.recordedBy?, hunderrun]

theorem recorded (h : Chronicle log tape (a :: rest)) (hnodup : ((a :: rest).map (·.number)).Nodup)
    {hdelivers : x.pull.isUnderrun = false} (ha : a.stage = .measured x hdelivers) :
    Chronicle (log ++ [.recorded a.number x.data]) (tape.push x.data)
      (a.reach (.settled x) :: rest) := by
  refine h.advance hnodup (by simp [Note.recorded?]) (fun w hw => ⟨?_, rfl⟩) ?_
  · exact if_neg hw.symm
  · rw [ha]
    simp [Stage.pending, Note.deliveredTo?, Note.recordedBy?]

end Chronicle

end Simulator

end Playout

import Playout.Proofs.Reachable
import Playout.Bench.Hardware

/-!
# Delivery

What the devices get from a feed is what the producer handed over to it: in order, each buffer once,
byte for byte.  What has been handed over and not been taken is still there.  A buffer that is being
written holds all that has been written since the last commit, however often it is borrowed.
-/

namespace Playout

/-- What a request for `n` bytes cuts out of a buffer. -/
def Delivery.cut (n : Nat) (page : Bytes) : Delivery := ⟨n, page.first n, min n page.size⟩

/-- The contents of the slots that wait for the device. -/
def Feed.waiting (f : Feed) : List Bytes :=
  (f.handshake.members.filter fun s => decide (f.handshake.state s = .ready)).map f.content

namespace Handshake

variable {h : Handshake}

theorem filter_ready_of_none (hnone : ∀ s, h.state s ≠ .ready) :
    (h.members.filter fun s => decide (h.state s = .ready)) = [] := by
  apply List.filter_eq_nil_iff.mpr
  intro s _
  simpa using hnone s

-- Where only one slot waits, it is the list of those that wait.
theorem filter_ready_of_unique {s : Slot} (hmem : s ∈ h.members) (hs : h.state s = .ready)
    (hunique : ∀ t, h.state t = .ready → t = s) :
    (h.members.filter fun s => decide (h.state s = .ready)) = [s] := by
  have hother : h.state s.other ≠ .ready := fun ht => Slot.other_ne s (hunique _ ht)
  rw [mem_members] at hmem
  cases hd : h.double with
  | true =>
    cases s with
    | a =>
      replace hother : h.state .b ≠ .ready := hother
      simp [members, hd, hs, hother]
    | b =>
      replace hother : h.state .a ≠ .ready := hother
      simp [members, hd, hs, hother]
  | false =>
    have ha : s = .a := by simpa [hd] using hmem
    subst ha
    simp [members, hd, hs]

end Handshake

namespace Line

variable {x : Line}

-- The slots that wait hold what has been handed over and not been taken.
theorem Inv.waiting_eq (hx : x.Inv) :
    x.feed.waiting = x.ledger.handed.drop x.ledger.taken.length := by
  unfold Feed.waiting
  by_cases hready : ∃ s, x.feed.handshake.state s = .ready
  · obtain ⟨s, hs⟩ := hready
    have hlist := Handshake.filter_ready_of_unique (hx.orderly.shaped.ready_mem hs) hs
      fun t ht => hx.orderly.ready_unique ht hs
    rw [hlist, hx.faithful.waiting s hs]
    rfl
  · have hnone : ∀ s, x.feed.handshake.state s ≠ .ready := fun s hs => hready ⟨s, hs⟩
    rw [Handshake.filter_ready_of_none hnone, hx.faithful.none_waiting hnone]
    rfl

-- The deliveries are cut out of the buffers handed over, one for one.
theorem Inv.taken_eq (hx : x.Inv) :
    x.ledger.taken =
      List.zipWith Delivery.cut (x.ledger.taken.map (·.requested)) x.ledger.handed := by
  apply List.ext_getElem?
  intro i
  rw [List.getElem?_zipWith, List.getElem?_map]
  -- delivery number `i` is made of buffer number `i`
  cases hd : x.ledger.taken[i]? with
  | none => rfl
  | some d =>
    obtain ⟨page, hpage, hdata, hdelivered⟩ := hx.faithful.taken i d hd
    have hsize := hx.faithful.size_handed page (List.mem_of_getElem? hpage)
    rw [hpage]
    show some d = some (Delivery.cut d.requested page)
    rw [Delivery.cut, hsize, ← hdata, ← hdelivered]

end Line

namespace Playback

variable {τ : Type}

def bufferBytes (p : Playback τ) (k : Nat) : Nat :=
  match p.feed? k with
  | some f => f.bufferBytes
  | none => 0

def waiting (p : Playback τ) (k : Nat) : List Bytes :=
  match p.feed? k with
  | some f => f.waiting
  | none => []

/-- A sound playback delivers what was handed over. -/
theorem Sound.deliveries {tr : List Event} {p : Playback τ} (hs : Sound tr p) (k : Nat) :
    (ledger k tr).taken.length ≤ (ledger k tr).handed.length ∧
      (ledger k tr).taken = List.zipWith Delivery.cut ((ledger k tr).taken.map (·.requested))
        (ledger k tr).handed ∧
      (ledger k tr).handed.drop (ledger k tr).taken.length = p.waiting k ∧
      ∀ page ∈ (ledger k tr).handed, page.size = p.bufferBytes k := by
  by_cases hk : k < p.session.opens
  · obtain ⟨f, hf⟩ := hs.present hk
    have hx := hs.lines k f hf
    have hwaiting : p.waiting k = f.waiting := by simp [waiting, hf]
    have hbytes : p.bufferBytes k = f.bufferBytes := by simp [bufferBytes, hf]
    rw [hwaiting, hbytes]
    exact ⟨hx.faithful.taken_le, hx.taken_eq, hx.waiting_eq.symm, hx.faithful.size_handed⟩
  · -- there has been no such feed yet
    have hblank := hs.blank k (Nat.le_of_not_lt hk)
    have hnone : p.feed? k = none := by
      cases hf : p.feed? k with
      | none => rfl
      | some f => exact absurd (hs.numbers hf) hk
    have hwaiting : p.waiting k = [] := by simp [waiting, hnone]
    rw [hwaiting, hblank]
    refine ⟨Nat.le_refl _, rfl, rfl, ?_⟩
    intro page hpage
    cases hpage

/-- The slot that is being filled shows the draft, and from the moment a commit is entered it holds
the page that will be handed over. -/
theorem Sound.shows_draft {tr : List Event} {p : Playback τ} (hs : Sound tr p) {st : Stream}
    (hst : p.session.stream = some st) :
    (p.producer ≠ .waiting .commit →
      (ledger st.number tr).draft = st.feed.draft? st.producerBytes) ∧
    (p.producer = .waiting .commit →
      st.feed.content st.feed.handshake.active = (ledger st.number tr).page) := by
  have hline := (hs.open_line hst).faithful
  have hbytes := hs.producerBytes_eq hst (decide (p.producer = .waiting .commit))
  constructor
  · intro hproducer
    rw [← hbytes]
    exact hline.draft (decide_eq_false hproducer)
  · intro hproducer
    exact hline.page (decide_eq_true hproducer)

variable [Transport τ]

-- A borrow answers what the slot holds.
theorem Transition.answer_borrow {es : List Event} {p q : Playback τ} (h : p.Transition es q)
    {st : Stream} (hst : p.session.stream = some st) {stalled : Bool} {bytes : Bytes}
    (hmem : .answered st.number .borrow stalled (.buffer bytes) ∈ es) :
    p.producer = .waiting .borrow ∧
      bytes = (st.feed.content st.feed.handshake.active).first st.producerBytes := by
  cases h with
  | idle | entered | committing | configured => cases hmem
  | fault | notOpened | opened | skipped | wrote | paused | stopped | resumed | restarted
  | notRestarted | closed | closing | handedOver | launched => cases List.mem_singleton.mp hmem
  | finished c hwait u hu stalled' a s hend =>
    rw [hst] at hu
    cases hu
    cases List.mem_singleton.mp hmem
    cases hend with
    | borrow hfillable hsize => exact ⟨hwait, rfl⟩

/-- A borrow answers what the slot holds, and so the draft if one has been begun. -/
theorem Sound.answers_draft {tr : List Event} {p : Playback τ} (hs : Sound tr p) {st : Stream}
    (hst : p.session.stream = some st) {a : Action} {stalled : Bool} {bytes : Bytes}
    (hmem : .answered st.number .borrow stalled (.buffer bytes) ∈ (p.step a).1) :
    bytes = (st.feed.content st.feed.handshake.active).first st.producerBytes ∧
      ∀ draft, (ledger st.number tr).draft = some draft → bytes = draft := by
  rcases p.step_cases a with ⟨k, c, -, hstep⟩ | h
  · rw [hstep] at hmem
    cases List.mem_singleton.mp hmem
  · obtain ⟨hwait, hbytes⟩ := h.answer_borrow hst hmem
    have hshows := (hs.shows_draft hst).1 (by rw [hwait]; decide)
    refine ⟨hbytes, fun draft hdraft => ?_⟩
    rw [hdraft] at hshows
    exact hbytes.trans (Feed.eq_of_draft? hshows.symm).symm

/-- After every run, for every feed: there are no more deliveries than hand-overs, and the deliveries
are cut out of the buffers handed over, in order and one for one.  The buffers left over are those
that wait.  Each has the size of the stream's buffers, and each belongs to a commit that has
returned, unless the first one is just being launched.

What is handed over is the draft: what the first borrow since the last commit answered, with all that
has been written since.  As long as the stream is open,

* the slot that is being filled shows the draft, and no other slot is being filled;
* while a commit is under way that slot holds the page made of the draft;
* whatever happens next, a borrow answers what the slot holds, and this is the draft that has been
  begun, if one has been. -/
theorem deliveries_follow_commits (t : τ) (c : Settings) (as : List Action) (k : Nat) :
    let r := (new t c).run as
    let l := ledger k r.1
    l.taken.length ≤ l.handed.length ∧
      l.taken = List.zipWith Delivery.cut (l.taken.map (·.requested)) l.handed ∧
      l.handed.drop l.taken.length = r.2.waiting k ∧
      (∀ page ∈ l.handed, page.size = r.2.bufferBytes k) ∧
      l.handed.length = l.returned + (if r.2.holds k && r.2.producer.isLaunching then 1 else 0) ∧
      ∀ st, r.2.session.stream = some st → st.number = k →
        (r.2.producer ≠ .waiting .commit → l.draft = st.feed.draft? st.producerBytes) ∧
        (r.2.producer = .waiting .commit → st.feed.content st.feed.handshake.active = l.page) ∧
        ∀ a stalled bytes, .answered k .borrow stalled (.buffer bytes) ∈ (r.2.step a).1 →
          bytes = (st.feed.content st.feed.handshake.active).first st.producerBytes ∧
            ∀ draft, l.draft = some draft → bytes = draft := by
  intro r l
  have hs : Sound r.1 r.2 := sound_run t c as
  obtain ⟨hle, htaken, hwaiting, hsize⟩ := hs.deliveries k
  refine ⟨hle, htaken, hwaiting, hsize, hs.balance k, ?_⟩
  rintro st hst rfl
  obtain ⟨hdraft, hpage⟩ := hs.shows_draft hst
  exact ⟨hdraft, hpage, fun a stalled bytes => hs.answers_draft hst⟩

/-- Two commits of mono that a stereo device gets in two requests of different sizes, while the first
pull is still held.  The first buffer is borrowed again between two writes, and a third one is
begun and borrowed again. -/
theorem deliveries_of_two_commits :
    let device : Hardware.Manual :=
      ⟨{ pcm8 := some ⟨.stereo, .any⟩ }, 0, true⟩
    let as : List Action := [.command (.openStream Allocator.machine ⟨.pcm8, .mono, 8000⟩),
      .command (.enter .borrow), .finish false, .command (.write [.put 0 [1]]),
      .command (.enter .borrow), .finish false, .command (.write [.put 1 [2]]),
      .command (.enter .commit), .handOver false, .device 0 (.hold 3 "first"), .launch,
      .command (.enter .borrow), .finish false, .command (.write [.ramp 5]),
      .command (.enter .commit), .finish false, .device 0 (.pull 9), .device 0 (.drop "first"),
      .command (.enter .borrow), .finish false, .command (.write [.put 1 [9]]),
      .command (.enter .borrow)]
    let r := (new (Hardware.new (.manual device) .none)
      { Settings.standard with frameCount := 2 }).run as
    let l := ledger 0 r.1
    l.handed = [#[1, 1, 2, 2], #[5, 5, 6, 6]] ∧
      l.taken = [⟨3, #[1, 1, 2], 3⟩, ⟨9, #[5, 5, 6, 6], 4⟩] ∧
      (#[5, 5, 6, 6] : Bytes).size = r.2.bufferBytes 0 ∧ l.draft = some #[1, 9] ∧
      ∀ bytes, .answered 0 .borrow false (.buffer bytes) ∈ (r.2.step (.finish false)).1 →
        bytes = #[1, 9] := by
  intro device as
  have hall := deliveries_follow_commits (Hardware.new (.manual device) .none)
    { Settings.standard with frameCount := 2 } as 0
  generalize hr : (new (Hardware.new (.manual device) .none)
    { Settings.standard with frameCount := 2 }).run as = r at hall ⊢
  have hhanded : (ledger 0 r.1).handed = [#[1, 1, 2, 2], #[5, 5, 6, 6]] := by
    rw [← hr]
    decide +kernel
  have htaken : (ledger 0 r.1).taken = [⟨3, #[1, 1, 2], 3⟩, ⟨9, #[5, 5, 6, 6], 4⟩] := by
    rw [← hr]
    decide +kernel
  have hdraft : (ledger 0 r.1).draft = some #[1, 9] := by
    rw [← hr]
    decide +kernel
  have hnumber : r.2.session.stream.map (·.number) = some 0 := by
    rw [← hr]
    decide +kernel
  obtain ⟨-, -, -, hsize, -, hopen⟩ := hall
  obtain ⟨st, hst, hk⟩ := Option.map_eq_some_iff.mp hnumber
  refine ⟨hhanded, htaken, hsize _ (by rw [hhanded]; simp), hdraft, fun bytes hmem => ?_⟩
  exact ((hopen st hst hk).2.2 _ _ bytes hmem).2 _ hdraft

end Playback

end Playout

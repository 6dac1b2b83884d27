import Playout.Proofs.Notes

/-!
# What a device hears

On a feed without a session, whatever the producer and the device do, what a pull shows can be read
off the notes of an observer, and a pull that is held goes on showing it.
-/

namespace Playout

namespace FeedBench

/-! ## 1. What every run keeps -/

/-- The feed alone is feed number 0. -/
theorem feed?_eq_some {f g : Feed} {k : Nat} (e : FeedStore.feed? f k = some g) : k = 0 ∧ g = f := by
  by_cases hk : k = 0
  · rw [show FeedStore.feed? f k = some f from if_pos hk] at e
    exact ⟨hk, (Option.some.inj e).symm⟩
  · rw [show FeedStore.feed? f k = none from if_neg hk] at e
    cases e

/-- The ends of a step: what it answers, and the bench after it. -/
inductive Outcome (b : FeedBench) : Step → Reply × FeedBench → Prop where
  | consumer (c : ConsumerStep) (r : ConsumerReply × Feed × LivePulls)
      (hend : c.Outcome (some 0) b.feed b.live r) :
      Outcome b (.consumer c) (.consumer r.1, ⟨r.2.1, r.2.2⟩)
  | filled (edits : List Edit) (s : Slot) (f : Feed) (hfill : b.feed.fill edits = .ok (s, f)) :
      Outcome b (.fill edits) (.slot s, { b with feed := f })
  | handedOver (s : Slot) (f : Feed) (hover : b.feed.handOver = .ok (s, f)) :
      Outcome b .handOver (.slot s, { b with feed := f })
  | committed (edits : List Edit) (s t : Slot) (f g : Feed)
      (hfill : b.feed.fill edits = .ok (s, f)) (hover : f.handOver = .ok (t, g)) :
      Outcome b (.commit edits) (.slot t, { b with feed := g })
  -- The slot stops the producer.
  | stopped (s : Step) (x : SlotState) : Outcome b s (.stopped x, b)
  | parked (on : Bool) : Outcome b (.parked on) (.done, b)

theorem outcome (b : FeedBench) (s : Step) : b.Outcome s (b.step s) := by
  cases s with
  | consumer c => exact .consumer c _ (c.outcome (some 0) b.feed b.live)
  | fill edits =>
    cases hfill : b.feed.fill edits with
    | ok r =>
      simp only [step, produce, hfill]
      exact .filled edits r.1 r.2 hfill
    | error x =>
      simp only [step, produce, hfill]
      exact .stopped _ x
  | handOver =>
    cases hover : b.feed.handOver with
    | ok r =>
      simp only [step, produce, hover]
      exact .handedOver r.1 r.2 hover
    | error x =>
      simp only [step, produce, hover]
      exact .stopped _ x
  | commit edits =>
    cases hfill : b.feed.fill edits with
    | ok r =>
      cases hover : r.2.handOver with
      | ok r' =>
        simp only [step, produce, Feed.commit, hfill, hover]
        exact .committed edits r.1 r'.1 r.2 r'.2 hfill hover
      | error x =>
        simp only [step, produce, Feed.commit, hfill, hover]
        exact .stopped _ x
    | error x =>
      simp only [step, produce, Feed.commit, hfill]
      exact .stopped _ x
  | parked on => exact .parked on

/-- The bench after these steps. -/
def after (b : FeedBench) (steps : List Step) : FeedBench :=
  steps.foldl (fun b s => (b.step s).2) b

namespace Watched

variable {fallback : Fallback} {bytes n : Nat} {w : Watched} {s : Slot} {l : LivePull}

/-- The notes are right, and every live pull is of this feed and has a name of its own. -/
structure Inv (fallback : Fallback) (bytes : Nat) (w : Watched) : Prop where
  right : w.notes.Right fallback bytes w.bench.feed (w.bench.live.claims 0)
  names : w.bench.live.names.Nodup
  homes : ∀ l ∈ w.bench.live, l.feed = 0

namespace Inv

-- The slot of a live pull is being read.
theorem consumed (hw : w.Inv fallback bytes) (hl : l ∈ w.bench.live)
    (hclaimed : l.pull.claimed = some s) : w.bench.feed.handshake.state s = .consumed := by
  have hpos := LivePulls.claims_pos hl hclaimed
  have hcustody := hw.right.custody s
  rw [hw.homes l hl] at hpos
  split at hcustody
  next h => exact h
  next => omega

theorem consumer (hw : w.Inv fallback bytes) {c : ConsumerStep}
    {r : ConsumerReply × Feed × LivePulls} (hend : c.Outcome (some 0) w.bench.feed w.bench.live r) :
    Inv fallback bytes ⟨⟨r.2.1, r.2.2⟩,
      w.notes.deliver w.bench.feed.handshake (Delivery.of? c r.1)⟩ := by
  cases hend with
  | nothing =>
    rw [Delivery.of?_nothing]
    exact hw
  | pulled n k f f' hsource hfeed hdrop =>
    cases hsource
    obtain ⟨-, rfl⟩ := feed?_eq_some hfeed
    -- the claim of the pull is the one that dropping takes back
    exact ⟨(hw.right.pull n).drop hdrop rfl, hw.names, hw.homes⟩
  | held n k name f hname hsource hfeed =>
    cases hsource
    obtain ⟨-, rfl⟩ := feed?_eq_some hfeed
    refine ⟨?_, List.nodup_cons.mpr ⟨LivePulls.named?_eq_none hname, hw.names⟩, fun l hl => ?_⟩
    · have hclaims := LivePulls.claims_cons_self ⟨name, 0, (w.bench.feed.pull n).1⟩ w.bench.live
      have hpull := hw.right.pull n
      rw [← Delivery.of?_hold n name, ← hclaims] at hpull
      exact hpull
    · rcases List.mem_cons.mp hl with rfl | hl
      · rfl
      · exact hw.homes l hl
  | peeked name l f hname hfeed => exact hw
  | dropped name l f f' hname hfeed hdrop =>
    obtain ⟨hzero, rfl⟩ := feed?_eq_some hfeed
    -- the claims are those of the others and one more
    have hclaims := LivePulls.claims_without hw.names hname l.feed
    rw [LivePulls.claims_cons_self, hzero] at hclaims
    have hset : FeedStore.setFeed w.bench.feed l.feed f' = f' := if_pos hzero
    rw [hset]
    exact ⟨hw.right.drop hdrop hclaims, LivePulls.names_without hw.names, fun x hx =>
      hw.homes x (LivePulls.mem_of_mem_without hx)⟩
  | faulted name l f d hname hfeed hdrop =>
    -- cannot happen: the slot of a live pull is being read
    obtain ⟨-, rfl⟩ := feed?_eq_some hfeed
    obtain ⟨f', hok⟩ : ∃ f', w.bench.feed.drop l.pull = .ok f' :=
      Feed.drop_ok fun s => hw.consumed (LivePulls.named?_eq_some hname).1
    rw [hdrop] at hok
    cases hok

theorem step (hw : w.Inv fallback bytes) (x : Step) : (w.step x).Inv fallback bytes := by
  have hend := w.bench.outcome x
  unfold Watched.step
  generalize w.bench.step x = r at hend
  cases hend with
  | consumer c r hend => exact hw.consumer hend
  | filled edits s f hfill => exact ⟨hw.right.fill hfill, hw.names, hw.homes⟩
  | handedOver s f hover => exact ⟨hw.right.handOver hover, hw.names, hw.homes⟩
  | committed edits s t f g hfill hover =>
    exact ⟨(hw.right.fill hfill).handOver hover, hw.names, hw.homes⟩
  | stopped x _ => cases x <;> exact hw
  | parked on => exact hw

theorem run (hw : w.Inv fallback bytes) (steps : List Step) :
    (w.run steps).Inv fallback bytes := by
  induction steps generalizing w with
  | nil => exact hw
  | cons x steps ih => exact ih (hw.step x)

end Inv

theorem bench_run (w : Watched) (steps : List Step) : (w.run steps).bench = w.bench.after steps := by
  induction steps generalizing w with
  | nil => rfl
  | cons x steps ih => exact ih (w.step x)

end Watched

end FeedBench

/-! ## 2. Held pulls -/

/-- Nothing is written in a slot that is being read. -/
structure Feed.Spares (f f' : Feed) : Prop where
  silence : f'.silence = f.silence
  content : ∀ s, f.handshake.state s = .consumed → f'.content s = f.content s

namespace Feed.Spares

variable {f f' : Feed} {s : Slot}

theorem of_sameBytes (h : SameBytes f f') : f.Spares f' := ⟨h.silence, fun s _ => h.content s⟩

-- Filling writes in the active slot alone, which nobody reads.
theorem fill {edits : List Edit} (e : f.fill edits = .ok (s, f')) : f.Spares f' := by
  obtain ⟨-, hfillable, rfl⟩ := fill_eq_ok e
  refine ⟨rfl, fun t ht => (content_edit _ _ _ _ _).trans (if_neg ?_)⟩
  rintro rfl
  rw [ht] at hfillable
  simp at hfillable

-- A hand-over writes nothing.
theorem handOver {g : Feed} (h : f.Spares g) (e : g.handOver = .ok (s, f')) : f.Spares f' := by
  obtain ⟨-, -, rfl⟩ := handOver_eq_ok e
  exact ⟨h.silence, h.content⟩

theorem read (h : f.Spares f') {p : Pull}
    (hp : ∀ s, p.claimed = some s → f.handshake.state s = .consumed) : f'.read p = f.read p := by
  unfold Feed.read
  split
  next s hs => rw [h.content s (hp s hs)]
  next => rw [h.silence]

end Feed.Spares

namespace FeedBench

namespace Outcome

variable {b : FeedBench} {x : Step} {r : Reply × FeedBench} {l : LivePull}

theorem spares (h : b.Outcome x r) : b.feed.Spares r.2.feed := by
  have hset : ∀ (f f' : Feed) k, FeedStore.feed? b.feed k = some f → f.SameBytes f' →
      b.feed.Spares (FeedStore.setFeed b.feed k f') := by
    intro f f' k hfeed hsame
    obtain ⟨hk, rfl⟩ := feed?_eq_some hfeed
    rw [show FeedStore.setFeed b.feed k f' = f' from if_pos hk]
    exact .of_sameBytes hsame
  have hrefl : b.feed.Spares b.feed := ⟨rfl, fun _ _ => rfl⟩
  cases h with
  | consumer c r hend =>
    cases hend with
    | nothing | peeked | faulted => exact hrefl
    | pulled n k f f' _ hfeed hdrop =>
      exact hset f f' k hfeed ((f.sameBytes_pull n).trans (Feed.sameBytes_drop hdrop))
    | held n k name f _ _ hfeed => exact hset f _ k hfeed (f.sameBytes_pull n)
    | dropped name l f f' _ hfeed hdrop => exact hset f f' l.feed hfeed (Feed.sameBytes_drop hdrop)
  | filled edits s f hfill => exact .fill hfill
  | handedOver s f hover => exact hrefl.handOver hover
  | committed edits s t f g hfill hover => exact (Feed.Spares.fill hfill).handOver hover
  | stopped | parked => exact hrefl

theorem mem_live (h : b.Outcome x r) (hl : l ∈ b.live) (hx : x ≠ .consumer (.drop l.name)) :
    l ∈ r.2.live := by
  cases h with
  | consumer c r hend =>
    cases hend with
    | nothing | pulled | peeked => exact hl
    | held => exact List.mem_cons_of_mem _ hl
    | dropped | faulted => exact LivePulls.mem_without hl fun h => hx (by rw [h])
  | filled | handedOver | committed | stopped | parked => exact hl

end Outcome

namespace Watched

variable {fallback : Fallback} {bytes n : Nat} {w : Watched} {l : LivePull}

/-- A pull shows as long as it is held what it showed at first. -/
theorem Inv.shows (hw : w.Inv fallback bytes) (hl : l ∈ w.bench.live) {steps : List Step}
    (hsteps : .consumer (.drop l.name) ∉ steps) :
    l ∈ (w.bench.after steps).live ∧
      (w.bench.after steps).feed.read l.pull = w.bench.feed.read l.pull := by
  induction steps generalizing w with
  | nil => exact ⟨hl, rfl⟩
  | cons x steps ih =>
    have hend := w.bench.outcome x
    have hmem : l ∈ (w.step x).bench.live :=
      hend.mem_live hl fun h => hsteps (h ▸ List.mem_cons_self)
    obtain ⟨hlast, hread⟩ := ih (hw.step x) hmem fun h => hsteps (List.mem_cons_of_mem _ h)
    exact ⟨hlast, hread.trans (hend.spares.read fun s => hw.consumed hl)⟩

-- A slot is being read only while a live pull claims it.
theorem Inv.reader (hw : w.Inv fallback bytes) {s : Slot}
    (hs : w.bench.feed.handshake.state s = .consumed) :
    ∃ l ∈ w.bench.live, l.pull.claimed = some s := by
  have hcustody := hw.right.custody s
  rw [if_pos hs] at hcustody
  have hpos : 0 < w.bench.live.claims 0 s := by omega
  obtain ⟨l, hl, hmatch⟩ := List.countP_pos_iff.mp hpos
  exact ⟨l, hl, (of_decide_eq_true hmatch).2⟩

-- With nothing waiting, a slot that is not busy is empty, and the other way round.
theorem Inv.busy_iff (hw : w.Inv fallback bytes)
    (hnone : ∀ s, w.bench.feed.handshake.state s ≠ .ready) (s : Slot) :
    w.Busy s ↔ w.bench.feed.handshake.state s ≠ .empty := by
  constructor
  · rintro (hfilling | ⟨l, hl, hclaimed⟩)
    · simp [hfilling]
    · simp [hw.consumed hl hclaimed]
  · intro hne
    cases hs : w.bench.feed.handshake.state s with
    | empty => exact absurd hs hne
    | filling => exact .inl hs
    | ready => exact absurd hs (hnone s)
    | consumed => exact .inr (hw.reader hs)

/-- An underrun shows what the notes say. -/
theorem Inv.underrun (hw : w.Inv fallback bytes) (hgrant : w.bench.feed.grant n ≠ 0)
    (hnone : ∀ s, w.bench.feed.handshake.state s ≠ .ready) :
    (w.bench.feed.pull n).1.delivered = 0 ∧ (w.bench.feed.pull n).1.length = w.bench.feed.grant n ∧
      (w.bench.feed.pull n).2.read (w.bench.feed.pull n).1 = w.missed (w.bench.feed.grant n) := by
  have hx := hw.right
  have hzeros : (Bytes.zeros bytes).first (w.bench.feed.grant n) =
      .zeros (w.bench.feed.grant n) := by
    have hle := w.bench.feed.grant_le n
    rw [hx.bufferBytes] at hle
    rw [Bytes.first_zeros, Nat.min_eq_left hle]
  by_cases hreplay : w.bench.feed.fallback = .replay ∧
      w.bench.feed.handshake.state w.bench.feed.handshake.last = .empty
  · obtain ⟨hback, hempty⟩ := hreplay
    rw [Feed.pull_of_replay hgrant hnone hback hempty]
    refine ⟨rfl, rfl, ?_⟩
    show (w.bench.feed.content w.bench.feed.handshake.last).first _ = _
    rw [hx.echo (.inl hempty), missed, hback]
    cases hheard : w.notes.heard with
    | none => exact hzeros
    | some r =>
      obtain ⟨s, page⟩ := r
      have hidle : ¬ w.Busy s := by
        rw [hw.busy_iff hnone, ← hx.last s page hheard]
        exact not_not_intro hempty
      simp [hidle]
  · have hbusy : w.bench.feed.fallback = .replay →
        w.bench.feed.handshake.state w.bench.feed.handshake.last ≠ .empty :=
      fun hback hempty => hreplay ⟨hback, hempty⟩
    rw [Feed.pull_of_silence hgrant hnone hbusy]
    refine ⟨rfl, rfl, ?_⟩
    show w.bench.feed.silence.first (w.bench.feed.grant n) = _
    rw [hx.silence, hzeros, missed]
    cases hback : w.bench.feed.fallback with
    | silence => rfl
    | replay =>
      cases hheard : w.notes.heard with
      | none => rfl
      | some r =>
        obtain ⟨s, page⟩ := r
        have hs : w.Busy s := by
          rw [hw.busy_iff hnone, ← hx.last s page hheard]
          exact hbusy hback
        simp [hs]

end Watched

/-! ## 3. Every run -/

theorem step_hold (b : FeedBench) (n : Nat) {name : String} (hname : b.live.named? name = none) :
    b.step (.consumer (.hold n name)) = (.consumer ((b.feed.pull n).2.view (b.feed.pull n).1),
      ⟨(b.feed.pull n).2, ⟨name, 0, (b.feed.pull n).1⟩ :: b.live⟩) := by
  simp [step, ConsumerStep.run, ConsumerStep.run.lookUp, FeedStore.feed?, FeedStore.setFeed, hname]

theorem step_peek (b : FeedBench) {name : String} {l : LivePull}
    (hname : b.live.named? name = some l) (hfeed : l.feed = 0) :
    b.step (.consumer (.peek name)) = (.consumer (b.feed.view l.pull), b) := by
  simp [step, ConsumerStep.run, ConsumerStep.run.find, FeedStore.feed?, hname, hfeed]

/-- For every feed over buffers that have been allocated, after every run of producer and device, in
which the producer hands over whenever it likes, a pull of `n` bytes gets `length` bytes, the least
of `n` and the size of a buffer, which stays what it was.

* If that is none, the pull is empty and no underrun, and nothing has changed.
* Otherwise, if some slot waits, the lowest one is claimed, all bytes are freshly delivered, and they
  are the first bytes that the slot held when it was handed over.
* Otherwise nothing is delivered and the pull is an underrun; it shows what was delivered last as it
  was handed over, or silence.
* If the pull is held, it shows the same at every later moment. -/
theorem pull_exact {mem : Allocator} {format : Format} {frames align : Nat} {double : Bool}
    {b : Buffers} (hb : Buffers.allocate mem format frames double align = .ok b)
    (played : Format) (fallback : Fallback) (steps : List Step) (n : Nat) :
    let w := (Watched.start (Feed.ofBuffers b played fallback)).run steps
    let f := w.bench.feed
    let h := f.handshake
    let length := min n b.bufferBytes
    let r := f.pull n
    (f.fallback = fallback ∧ f.bufferBytes = b.bufferBytes) ∧
    (length = 0 → r = (.silence 0, f) ∧ r.1.isUnderrun = false ∧ r.2.read r.1 = #[]) ∧
    (length ≠ 0 → ∀ s, h.Foremost s →
      r.1 = ⟨some s, length, length⟩ ∧ r.2.handshake.state s = .consumed ∧
        ∃ page, w.notes.handed.get s = some page ∧ page.size = b.bufferBytes ∧
          r.2.read r.1 = page.first length) ∧
    (length ≠ 0 → (∀ s, h.state s ≠ .ready) →
      r.1.delivered = 0 ∧ r.1.isUnderrun = true ∧ r.1.length = length ∧
        r.2.read r.1 = w.missed length) ∧
    ∀ name more, w.bench.live.named? name = none → .consumer (.drop name) ∉ more →
      let q := w.bench.step (.consumer (.hold n name))
      q.1 = .consumer (r.2.view r.1) ∧
        ((q.2.after more).step (.consumer (.peek name))).1 = .consumer (r.2.view r.1) := by
  intro w f h length r
  obtain ⟨bytes, -, -, rfl⟩ := Buffers.allocate_eq_ok hb
  have hstart : (Watched.start (Feed.ofBuffers (.zeroed double bytes) played fallback)).Inv
      fallback bytes :=
    ⟨.start double bytes played fallback, List.nodup_nil, fun l hl => by cases hl⟩
  have hw : w.Inv fallback bytes := hstart.run steps
  have hx := hw.right
  have hbytes : (Buffers.zeroed double bytes).bufferBytes = bytes := Bytes.size_zeros bytes
  have hlength : f.grant n = length := by
    rw [Feed.grant, hx.bufferBytes, ← hbytes]
  refine ⟨⟨hx.fallback, hx.bufferBytes.trans hbytes.symm⟩, fun hzero => ?_, fun hpos s hs => ?_,
    fun hpos hnone => ?_, ?_⟩
  · have hpull : r = (.silence 0, f) := Feed.pull_of_nothing (hlength.trans hzero)
    rw [hpull]
    exact ⟨rfl, rfl, by simp [Feed.read, Pull.silence, Bytes.first]⟩
  · have hpull := Feed.pull_of_firstReady? (n := n) (by rwa [hlength])
      (hx.shaped.firstReady?_of_foremost hs)
    rw [hlength] at hpull
    have hsize : (f.content s).size = bytes := hx.content s (hx.shaped.ready_mem hs.1)
    rw [show r = _ from hpull]
    refine ⟨rfl, (Handshake.state_claimed _ _ _).trans (if_pos rfl), f.content s,
      hx.waiting s hs.1, hsize.trans hbytes.symm, rfl⟩
  · obtain ⟨hdelivered, hlen, hread⟩ := hw.underrun (by rwa [hlength]) hnone
    rw [hlength] at hlen hread
    refine ⟨hdelivered, ?_, hlen, hread⟩
    rw [Pull.isUnderrun, show r.1.delivered = 0 from hdelivered, show r.1.length = length from hlen]
    simpa using hpos
  · intro name more hname hmore q
    have hhold := w.bench.step_hold n hname
    have hheld := hw.step (.consumer (.hold n name))
    have hbench : (w.step (.consumer (.hold n name))).bench = q.2 := rfl
    have hq : q.2 = ⟨r.2, ⟨name, 0, r.1⟩ :: w.bench.live⟩ := by rw [show q = _ from hhold]
    have hmem : ⟨name, 0, r.1⟩ ∈ (w.step (.consumer (.hold n name))).bench.live := by
      rw [hbench, hq]
      exact List.mem_cons_self
    obtain ⟨hlast, hread⟩ := hheld.shows hmem hmore
    rw [hbench] at hlast hread
    -- names are unique, so looking the name up finds this very pull
    have hnames := (hheld.run more).names
    rw [Watched.bench_run, hbench] at hnames
    have hfound := LivePulls.named?_of_mem hnames hlast
    refine ⟨by rw [show q = _ from hhold], ?_⟩
    rw [step_peek _ hfound rfl, Feed.view, hread, hq]
    rfl

/-- Two buffers wait at once, and the lower slot goes first.  When both have been taken, the second one
is heard again while the producer fills the first slot. -/
theorem pull_exact_with_two_waiting :
    let format : Format := ⟨.pcm8, .mono, 8000⟩
    let filling : List Step := [.commit [.fill 7], .commit [.fill 8]]
    let w := (Watched.start (Feed.ofBuffers (.zeroed true 4) format .replay)).run filling
    let v := (Watched.start (Feed.ofBuffers (.zeroed true 4) format .replay)).run
      (filling ++ [.consumer (.pull 4), .consumer (.pull 4), .fill [.fill 9]])
    (w.bench.feed.pull 3).1 = ⟨some .a, 3, 3⟩ ∧
      (∃ page, w.notes.handed.get .a = some page ∧ page.size = 4 ∧
        (w.bench.feed.pull 3).2.read (w.bench.feed.pull 3).1 = page.first 3) ∧
      v.missed 3 = #[8, 8, 8] ∧
      (v.bench.feed.pull 3).2.read (v.bench.feed.pull 3).1 = v.missed 3 := by
  intro format filling w v
  have hb : Buffers.allocate .machine format 4 true 32 = .ok (.zeroed true 4) := by
    have hsome : (Buffers.allocate .machine format 4 true 32).toOption =
        some (.zeroed true 4) := by decide +kernel
    cases hall : Buffers.allocate .machine format 4 true 32 with
    | ok b =>
      rw [hall] at hsome
      cases hsome
      rfl
    | error e =>
      rw [hall] at hsome
      cases hsome
  have hsize : (Buffers.zeroed true 4).bufferBytes = 4 := by decide +kernel
  have hwaiting : w.bench.feed.handshake.Foremost .a := by
    refine ⟨by decide +kernel, fun t _ => Nat.zero_le _⟩
  have hfirst := pull_exact hb format .replay filling 3
  have hlater := pull_exact hb format .replay
    (filling ++ [.consumer (.pull 4), .consumer (.pull 4), .fill [.fill 9]]) 3
  have hlength : min 3 4 = 3 := rfl
  have hv : (Watched.start (Feed.ofBuffers (.zeroed true 4) format .replay)).run
    (filling ++ [.consumer (.pull 4), .consumer (.pull 4), .fill [.fill 9]]) = v := rfl
  rw [hsize, hlength] at hfirst hlater
  rw [hv] at hlater
  obtain ⟨hpull, -, hpage⟩ := hfirst.2.2.1 (by decide) .a hwaiting
  obtain ⟨-, -, -, hread⟩ := hlater.2.2.2.1 (by decide) fun s => by cases s <;> decide +kernel
  exact ⟨hpull, hpage, by decide +kernel, hread⟩

end FeedBench

end Playout

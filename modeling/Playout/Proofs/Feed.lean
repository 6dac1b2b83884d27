import Playout.Consumer
import Playout.Proofs.Duplication
import Playout.Proofs.Handshake

/-!
# What happens to a feed

A pull ends in one of four ways.  Whatever the device does, it only moves the handshake and the
counters: the bytes are the producer's alone, and silence is nobody's.
-/

namespace Playout

namespace Feed

variable {f f' : Feed} {s : Slot}

/-! ## 1. Replacing a part -/

@[simp] theorem handshake_setHandshake (f : Feed) (h : Handshake) :
    (f.setHandshake h).handshake = h := rfl

@[simp] theorem format_setHandshake (f : Feed) (h : Handshake) :
    (f.setHandshake h).format = f.format := rfl

@[simp] theorem bufferBytes_setHandshake (f : Feed) (h : Handshake) :
    (f.setHandshake h).bufferBytes = f.bufferBytes := rfl

theorem content_setContent (f : Feed) (s t : Slot) (b : Bytes) :
    (f.setContent s b).content t = if t = s then b else f.content t :=
  f.slots.get_set s t b

/-! ## 2. Pulling -/

/-- The four ends of a pull for `n` bytes: the pull and the feed after it. -/
inductive Pulled (f : Feed) (n : Nat) : Pull × Feed → Prop where
  -- Nothing was asked for.
  | nothing (hgrant : f.grant n = 0) : Pulled f n (.silence 0, f)
  -- A slot was waiting.
  | delivered (s : Slot) (hgrant : f.grant n ≠ 0) (hmem : s ∈ f.handshake.members)
      (hready : f.handshake.state s = .ready) :
      Pulled f n (⟨some s, f.grant n, f.grant n⟩,
        { f.setHandshake (f.handshake.claimed s) with
          counters := f.counters.addDelivery (f.grant n) })
  -- No slot was waiting, and the one of the last claim is claimed once more.
  | replayed (hgrant : f.grant n ≠ 0)
      (hnone : ∀ s ∈ f.handshake.members, f.handshake.state s ≠ .ready)
      (hfallback : f.fallback = .replay)
      (hempty : f.handshake.state f.handshake.last = .empty) :
      Pulled f n (⟨some f.handshake.last, f.grant n, 0⟩,
        { f.setHandshake (f.handshake.claimed f.handshake.last) with
          counters := f.counters.addUnderrun })
  -- No slot was waiting, and there is nothing to replay.
  | silent (hgrant : f.grant n ≠ 0)
      (hnone : ∀ s ∈ f.handshake.members, f.handshake.state s ≠ .ready)
      (hreplay : f.fallback = .replay → f.handshake.state f.handshake.last ≠ .empty) :
      Pulled f n (.silence (f.grant n), { f with counters := f.counters.addUnderrun })

theorem claimReplay_eq_some {h : Handshake} (e : f.claimReplay = some (s, h)) :
    f.fallback = .replay ∧ s = f.handshake.last ∧
      f.handshake.state f.handshake.last = .empty ∧ h = f.handshake.claimed f.handshake.last := by
  unfold claimReplay at e
  split at e
  next hfallback => exact ⟨hfallback, Handshake.reclaim_eq_some e⟩
  next => cases e

theorem claimReplay_eq_none :
    f.claimReplay = none ↔
      (f.fallback = .replay → f.handshake.state f.handshake.last ≠ .empty) := by
  unfold claimReplay
  split
  next hfallback => simp [hfallback, Handshake.reclaim_eq_none]
  next hfallback => simp [hfallback]

theorem pulled (f : Feed) (n : Nat) : Pulled f n (f.pull n) := by
  unfold pull
  by_cases hgrant : f.grant n = 0
  · simp only [hgrant, if_true]
    exact .nothing hgrant
  · simp only [hgrant, if_false]
    cases hclaim : f.handshake.claimReady with
    | some r =>
      obtain ⟨s, h⟩ := r
      obtain ⟨hmem, hready, rfl⟩ := Handshake.claimReady_eq_some hclaim
      exact .delivered s hgrant hmem hready
    | none =>
      have hnone := Handshake.claimReady_eq_none.mp hclaim
      cases hreplay : f.claimReplay with
      | some r =>
        obtain ⟨s, h⟩ := r
        obtain ⟨hfallback, rfl, hempty, rfl⟩ := claimReplay_eq_some hreplay
        exact .replayed hgrant hnone hfallback hempty
      | none => exact .silent hgrant hnone (claimReplay_eq_none.mp hreplay)

theorem pull_of_nothing {n : Nat} (hgrant : f.grant n = 0) : f.pull n = (.silence 0, f) := by
  simp only [pull, hgrant, if_true]

-- An underrun of a feed that replays, where the slot of the last claim is free.
theorem pull_of_replay {n : Nat} (hgrant : f.grant n ≠ 0)
    (hnone : ∀ s, f.handshake.state s ≠ .ready) (hback : f.fallback = .replay)
    (hempty : f.handshake.state f.handshake.last = .empty) :
    f.pull n = (⟨some f.handshake.last, f.grant n, 0⟩,
      { f.setHandshake (f.handshake.claimed f.handshake.last) with
        counters := f.counters.addUnderrun }) := by
  have hpull := f.pulled n
  generalize f.pull n = r at hpull
  cases hpull with
  | nothing hzero => exact absurd hzero hgrant
  | delivered s _ _ hready => exact absurd hready (hnone s)
  | replayed => rfl
  | silent _ _ hreplay => exact absurd hempty (hreplay hback)

-- An underrun that finds nothing to replay.
theorem pull_of_silence {n : Nat} (hgrant : f.grant n ≠ 0)
    (hnone : ∀ s, f.handshake.state s ≠ .ready)
    (hreplay : f.fallback = .replay → f.handshake.state f.handshake.last ≠ .empty) :
    f.pull n = (.silence (f.grant n), { f with counters := f.counters.addUnderrun }) := by
  have hpull := f.pulled n
  generalize f.pull n = r at hpull
  cases hpull with
  | nothing hzero => exact absurd hzero hgrant
  | delivered s _ _ hready => exact absurd hready (hnone s)
  | replayed _ _ hback hempty => exact absurd hempty (hreplay hback)
  | silent => rfl

/-- What the device cannot touch. -/
structure SameBytes (f f' : Feed) : Prop where
  slots : f'.slots = f.slots
  silence : f'.silence = f.silence
  format : f'.format = f.format
  fallback : f'.fallback = f.fallback

namespace SameBytes

theorem trans {f'' : Feed} (h : SameBytes f f') (h' : SameBytes f' f'') : SameBytes f f'' :=
  ⟨h'.slots.trans h.slots, h'.silence.trans h.silence, h'.format.trans h.format,
    h'.fallback.trans h.fallback⟩

theorem content (h : SameBytes f f') (s : Slot) : f'.content s = f.content s := by
  rw [Feed.content, h.slots, Feed.content]

theorem bufferBytes (h : SameBytes f f') : f'.bufferBytes = f.bufferBytes := by
  rw [Buffers.bufferBytes, h.silence, Buffers.bufferBytes]

-- A pull reads the same from both feeds.
theorem read (h : SameBytes f f') (p : Pull) : f'.read p = f.read p := by
  unfold Feed.read
  split
  next s _ => rw [h.content s]
  next => rw [h.silence]

end SameBytes

theorem sameBytes_pull (f : Feed) (n : Nat) : SameBytes f (f.pull n).2 := by
  have h := f.pulled n
  generalize f.pull n = r at h
  cases h <;> exact ⟨rfl, rfl, rfl, rfl⟩

theorem touched_pull (f : Feed) (n : Nat) : f.handshake.Touched (f.pull n).2.handshake := by
  have h := f.pulled n
  generalize f.pull n = r at h
  cases h with
  | nothing => exact .rest
  | delivered s _ hmem hready => exact .claim .rest s hmem hready
  | replayed _ _ _ hempty => exact .reclaim .rest hempty
  | silent => exact .rest

theorem length_pull (f : Feed) (n : Nat) : (f.pull n).1.length = f.grant n := by
  have h := f.pulled n
  generalize f.pull n = r at h
  cases h with
  | nothing hgrant => exact hgrant.symm
  | delivered => rfl
  | replayed => rfl
  | silent => rfl

theorem grant_le (f : Feed) (n : Nat) : f.grant n ≤ f.bufferBytes := Nat.min_le_right _ _

/-! ## 3. Dropping -/

theorem drop_eq_ok {p : Pull} (e : f.drop p = .ok f') :
    p.claimed = none ∧ f' = f ∨
      ∃ s, p.claimed = some s ∧ f.handshake.state s = .consumed ∧
        f' = f.setHandshake (f.handshake.giveBack s) := by
  unfold drop at e
  cases hp : p.claimed with
  | none =>
    rw [hp] at e
    cases e
    exact .inl ⟨rfl, rfl⟩
  | some s =>
    rw [hp] at e
    by_cases hs : f.handshake.state s = .consumed
    · simp only [hs, if_true] at e
      cases e
      exact .inr ⟨s, rfl, hs, rfl⟩
    · simp [hs] at e

-- A pull whose slot is being read can be dropped.
theorem drop_ok {p : Pull} (h : ∀ s, p.claimed = some s → f.handshake.state s = .consumed) :
    ∃ f', f.drop p = .ok f' := by
  unfold drop
  cases hp : p.claimed with
  | none => exact ⟨f, rfl⟩
  | some s => exact ⟨_, if_pos (h s hp)⟩

theorem sameBytes_drop {p : Pull} (e : f.drop p = .ok f') : SameBytes f f' := by
  obtain ⟨-, rfl⟩ | ⟨s, -, -, rfl⟩ := drop_eq_ok e <;> exact ⟨rfl, rfl, rfl, rfl⟩

theorem touched_drop {p : Pull} (e : f.drop p = .ok f') : f.handshake.Touched f'.handshake := by
  obtain ⟨-, rfl⟩ | ⟨s, -, hconsumed, rfl⟩ := drop_eq_ok e
  · exact .rest
  · exact .giveBack .rest s hconsumed

-- A pull can be dropped at once.
theorem drop_pull_ok (f : Feed) (n : Nat) : ∃ f', (f.pull n).2.drop (f.pull n).1 = .ok f' := by
  apply drop_ok
  intro s hs
  have h := f.pulled n
  generalize f.pull n = r at h hs ⊢
  cases h with
  | nothing => cases hs
  | delivered t =>
    cases hs
    show (f.handshake.claimed s).state s = .consumed
    rw [Handshake.state_claimed, if_pos rfl]
  | replayed =>
    cases hs
    show (f.handshake.claimed f.handshake.last).state f.handshake.last = .consumed
    rw [Handshake.state_claimed, if_pos rfl]
  | silent => cases hs

/-! ## 4. The producer -/

theorem startFilling_eq_ok (e : f.startFilling = .ok (s, f')) :
    s = f.handshake.active ∧
      (f.handshake.state f.handshake.active = .empty ∨
        f.handshake.state f.handshake.active = .filling) ∧
      f' = f.setHandshake (f.handshake.setState f.handshake.active .filling) := by
  unfold startFilling at e
  split at e
  next t h hstart =>
    cases e
    obtain ⟨rfl, hfillable, rfl⟩ := Handshake.startFilling_eq_ok hstart
    exact ⟨rfl, hfillable, rfl⟩
  next => cases e

theorem handOver_eq_ok (e : f.handOver = .ok (s, f')) :
    s = f.handshake.active ∧ f.handshake.state f.handshake.active = .filling ∧
      f' = f.setHandshake f.handshake.handed := by
  unfold handOver at e
  split at e
  next t h hhand =>
    cases e
    obtain ⟨rfl, hfilling, rfl⟩ := Handshake.handOver_eq_ok hhand
    exact ⟨rfl, hfilling, rfl⟩
  next => cases e

theorem handOver_of_filling (hf : f.handshake.state f.handshake.active = .filling) :
    f.handOver = .ok (f.handshake.active, f.setHandshake f.handshake.handed) := by
  rw [handOver, Handshake.handOver_of_filling hf]

theorem content_edit (f : Feed) (s t : Slot) (n : Nat) (es : List Edit) :
    (f.edit s n es).content t =
      if t = s then (f.content s).overwrite (Edit.applyAll es ((f.content s).first n))
      else f.content t :=
  f.content_setContent s t _

theorem size_content_edit (f : Feed) (s t : Slot) (n : Nat) (es : List Edit) :
    ((f.edit s n es).content t).size = (f.content t).size := by
  rw [content_edit]
  split
  next h => rw [Bytes.size_overwrite, h]
  next => rfl

-- The part that was open for writing is what the edits made of it.
theorem first_content_edit {n : Nat} (h : n ≤ (f.content s).size) (es : List Edit) :
    ((f.edit s n es).content s).first n = Edit.applyAll es ((f.content s).first n) := by
  have hsize : (Edit.applyAll es ((f.content s).first n)).size = n := by
    rw [Edit.size_applyAll, Bytes.size_first]
    omega
  have hfit : (Edit.applyAll es ((f.content s).first n)).size ≤ (f.content s).size := by omega
  have hfirst := Bytes.first_overwrite (f.content s) hfit
  rw [content_edit, if_pos rfl]
  rwa [hsize] at hfirst

end Feed

/-! ## 5. Devices -/

namespace ConsumerStep

variable {σ : Type} [FeedStore σ]

/-- The ends of a step of a device that takes new pulls from feed `source`. -/
inductive Outcome (source : Option Nat) (place : σ) (live : LivePulls) :
    ConsumerStep → ConsumerReply × σ × LivePulls → Prop where
  -- Nothing to pull from, or no such pull.
  | nothing (c : ConsumerStep) : Outcome source place live c (.nothing, place, live)
  -- A pull that was dropped at once.
  | pulled (n k : Nat) (f f' : Feed) (hsource : source = some k)
      (hfeed : FeedStore.feed? place k = some f) (hdrop : (f.pull n).2.drop (f.pull n).1 = .ok f') :
      Outcome source place live (.pull n)
        ((f.pull n).2.view (f.pull n).1, FeedStore.setFeed place k f', live)
  -- A new pull that stays alive.
  | held (n k : Nat) (name : String) (f : Feed) (hname : live.named? name = none)
      (hsource : source = some k) (hfeed : FeedStore.feed? place k = some f) :
      Outcome source place live (.hold n name)
        ((f.pull n).2.view (f.pull n).1, FeedStore.setFeed place k (f.pull n).2,
          ⟨name, k, (f.pull n).1⟩ :: live)
  | peeked (name : String) (l : LivePull) (f : Feed) (hname : live.named? name = some l)
      (hfeed : FeedStore.feed? place l.feed = some f) :
      Outcome source place live (.peek name) (f.view l.pull, place, live)
  | dropped (name : String) (l : LivePull) (f f' : Feed) (hname : live.named? name = some l)
      (hfeed : FeedStore.feed? place l.feed = some f) (hdrop : f.drop l.pull = .ok f') :
      Outcome source place live (.drop name)
        (.done, FeedStore.setFeed place l.feed f', live.without name)
  -- The slot of the pull was not being read.
  | faulted (name : String) (l : LivePull) (f : Feed) (d : Defect)
      (hname : live.named? name = some l) (hfeed : FeedStore.feed? place l.feed = some f)
      (hdrop : f.drop l.pull = .error d) :
      Outcome source place live (.drop name) (.fault (.defect d), place, live.without name)

theorem lookUp_eq_some {source : Option Nat} {place : σ} {k : Nat} {f : Feed}
    (e : run.lookUp source place = some (k, f)) :
    source = some k ∧ FeedStore.feed? place k = some f := by
  obtain ⟨j, hsource, hrest⟩ := Option.bind_eq_some_iff.mp e
  obtain ⟨g, hfeed, hpair⟩ := Option.bind_eq_some_iff.mp hrest
  cases hpair
  exact ⟨hsource, hfeed⟩

theorem find_eq_some {name : String} {place : σ} {live : LivePulls} {l : LivePull} {f : Feed}
    (e : run.find name place live = some (l, f)) :
    live.named? name = some l ∧ FeedStore.feed? place l.feed = some f := by
  obtain ⟨x, hname, hrest⟩ := Option.bind_eq_some_iff.mp e
  obtain ⟨g, hfeed, hpair⟩ := Option.bind_eq_some_iff.mp hrest
  cases hpair
  exact ⟨hname, hfeed⟩

/-- A step of a device ends in one of these ways. -/
theorem outcome (source : Option Nat) (place : σ) (live : LivePulls) (c : ConsumerStep) :
    Outcome source place live c (c.run source place live) := by
  cases c with
  | pull n =>
    cases hfound : run.lookUp source place with
    | none =>
      simp only [run, hfound]
      exact .nothing _
    | some r =>
      obtain ⟨hsource, hfeed⟩ := lookUp_eq_some hfound
      obtain ⟨f', hdrop⟩ := r.2.drop_pull_ok n
      simp only [run, hfound, hdrop]
      exact .pulled n r.1 r.2 f' hsource hfeed hdrop
  | hold n name =>
    cases hname : live.named? name with
    | some l =>
      simp only [run, hname]
      exact .nothing _
    | none =>
      cases hfound : run.lookUp source place with
      | none =>
        simp only [run, hname, hfound]
        exact .nothing _
      | some r =>
        obtain ⟨hsource, hfeed⟩ := lookUp_eq_some hfound
        simp only [run, hname, hfound]
        exact .held n r.1 name r.2 hname hsource hfeed
  | peek name =>
    cases hfound : run.find name place live with
    | none =>
      simp only [run, hfound]
      exact .nothing _
    | some r =>
      obtain ⟨hname, hfeed⟩ := find_eq_some hfound
      simp only [run, hfound]
      exact .peeked name r.1 r.2 hname hfeed
  | drop name =>
    cases hfound : run.find name place live with
    | none =>
      simp only [run, hfound]
      exact .nothing _
    | some r =>
      obtain ⟨hname, hfeed⟩ := find_eq_some hfound
      cases hdrop : r.2.drop r.1.pull with
      | ok f' =>
        simp only [run, hfound, hdrop]
        exact .dropped name r.1 r.2 f' hname hfeed hdrop
      | error d =>
        simp only [run, hfound, hdrop]
        exact .faulted name r.1 r.2 d hname hfeed hdrop

end ConsumerStep

end Playout

import Playout.Proofs.Reachable
import Playout.Bench.Hardware

/-!
# Custody

A slot is being read exactly while one live pull claims it, and the producer writes only where
nobody reads.  So a pull that is held shows the same bytes for as long as it is held, whatever
happens in the meantime, and can be dropped at any moment.
-/

namespace Playout

/-! ## 1. What one action leaves alone -/

/-- Nothing is written outside the slot being filled. -/
structure Feed.Keeps (f f' : Feed) : Prop where
  silence : f'.silence = f.silence
  content : ∀ s, f.handshake.state s ≠ .filling → f'.content s = f.content s

namespace Feed.Keeps

variable {f f' : Feed}

theorem refl (f : Feed) : f.Keeps f := ⟨rfl, fun _ _ => rfl⟩

theorem of_sameBytes (h : SameBytes f f') : f.Keeps f' := ⟨h.silence, fun s _ => h.content s⟩

theorem setHandshake (f : Feed) (h : Handshake) : f.Keeps (f.setHandshake h) :=
  ⟨rfl, fun _ _ => rfl⟩

theorem setContent {s : Slot} (hs : f.handshake.state s = .filling) (b : Bytes) :
    f.Keeps (f.setContent s b) where
  silence := rfl
  content t ht := by
    rw [content_setContent, if_neg]
    rintro rfl
    exact ht hs

theorem edit {s : Slot} (hs : f.handshake.state s = .filling) (n : Nat) (es : List Edit) :
    f.Keeps (f.edit s n es) :=
  setContent hs _

-- A pull of a slot that is not being filled shows the same as before.
theorem read (h : f.Keeps f') {p : Pull}
    (hp : ∀ s, p.claimed = some s → f.handshake.state s ≠ .filling) : f'.read p = f.read p := by
  unfold Feed.read
  split
  next s hs => rw [h.content s (hp s hs)]
  next => rw [h.silence]

end Feed.Keeps

theorem Stream.keeps_handedOver (st : Stream) (stalled : Bool) :
    st.feed.Keeps (st.handedOver stalled).feed := by
  rw [Stream.feed_handedOver]
  exact .setHandshake _ _

namespace Playback

variable {τ : Type} {tr : List Event} {p p' : Playback τ} {k : Nat} {f : Feed}

-- A call on the open stream leaves all feeds alone but its own.
theorem keeps_of_stream {st st' : Stream} (hst : p.session.stream = some st)
    (hst' : p'.session.stream = some st') (hnumber : st'.number = st.number)
    (hkept : p'.kept = p.kept) (hkeeps : st.feed.Keeps st'.feed) (hf : p.feed? k = some f) :
    ∃ f', p'.feed? k = some f' ∧ f.Keeps f' := by
  by_cases hk : k = st.number
  · subst hk
    rw [feed?_of_open hst] at hf
    cases hf
    exact ⟨st'.feed, hnumber ▸ feed?_of_open hst', hkeeps⟩
  · rw [feed?_of_ne hst hk] at hf
    rw [feed?_of_ne hst' (hnumber ▸ hk), hkept]
    exact ⟨f, hf, .refl f⟩

theorem keeps_of_same (hstream : p'.session.stream = p.session.stream) (hkept : p'.kept = p.kept)
    (hf : p.feed? k = some f) : ∃ f', p'.feed? k = some f' ∧ f.Keeps f' := by
  refine ⟨f, ?_, .refl f⟩
  rw [feed?, hstream, hkept]
  exact hf

-- A step of a device writes nothing at all.
theorem Consumption.keeps {c : ConsumerStep} {j : Nat} {r : ConsumerReply × Playback τ}
    (h : p.Consumption j c r) (hf : p.feed? k = some f) :
    ∃ f', r.2.feed? k = some f' ∧ f.Keeps f' := by
  have hset : ∀ (i : Nat) (g g' : Feed) (live : LivePulls), p.feed? i = some g →
      Feed.SameBytes g g' →
      ∃ f', Playback.feed? { p.setFeed i g' with live := live } k = some f' ∧ f.Keeps f' := by
    intro i g g' live hg hsame
    have hfeed : Playback.feed? { p.setFeed i g' with live := live } k =
        if k = i then some g' else p.feed? k := p.feed?_setFeed i k g'
    rw [hfeed]
    split
    next hk =>
      subst hk
      rw [hf] at hg
      cases hg
      exact ⟨g', rfl, .of_sameBytes hsame⟩
    next => exact ⟨f, hf, .refl f⟩
  cases h with
  | nothing => exact ⟨f, hf, .refl f⟩
  | pulled n g g' hg hdrop =>
    rw [← p.setFeed_live]
    exact hset _ _ _ _ hg ((g.sameBytes_pull n).trans (Feed.sameBytes_drop hdrop))
  | held n name g hname hg => exact hset _ _ _ _ hg (g.sameBytes_pull n)
  | peeked => exact ⟨f, hf, .refl f⟩
  | dropped name l g g' hname hg hdrop => exact hset _ _ _ _ hg (Feed.sameBytes_drop hdrop)
  | faulted => exact ⟨f, hf, .refl f⟩

theorem Consumption.mem_live {c : ConsumerStep} {j : Nat} {r : ConsumerReply × Playback τ}
    (h : p.Consumption j c r) {l : LivePull} (hl : l ∈ p.live) (hc : c ≠ .drop l.name) :
    l ∈ r.2.live := by
  have hwithout : ∀ name, ConsumerStep.drop name ≠ .drop l.name → l ∈ p.live.without name :=
    fun name hname => LivePulls.mem_without hl fun h => hname (by rw [h])
  cases h with
  | nothing => exact hl
  | pulled => rwa [live_setFeed]
  | held => exact List.mem_cons_of_mem _ hl
  | peeked => exact hl
  | dropped name => exact hwithout name hc
  | faulted name => exact hwithout name hc

section

variable [Transport τ]

theorem Transition.live {es : List Event} {q : Playback τ} (h : p.Transition es q) :
    q.live = p.live := by
  cases h <;> rfl

-- The producer writes only into the slot being filled.
theorem Transition.keeps {es : List Event} {q : Playback τ} (h : p.Transition es q)
    (hs : Sound tr p) (hf : p.feed? k = some f) : ∃ f', q.feed? k = some f' ∧ f.Keeps f' := by
  cases h with
  | idle | fault | skipped | entered | paused | resumed | notRestarted | closed | configured =>
    exact keeps_of_same rfl rfl hf
  | notOpened hfree hclosed mem requested e s hend =>
    cases hend <;> exact keeps_of_same rfl rfl hf
  | opened hfree hclosed mem requested g s hend =>
    cases hend with
    | installed =>
      -- the new feed has a new number
      have hlt := hs.numbers hf
      have hne : p.session.opens ≠ k := by omega
      rw [feed?_of_closed hclosed] at hf
      refine ⟨f, ?_, .refl f⟩
      simp only [feed?, Session.install, if_neg hne]
      exact hf
  -- the two that write bytes write them where the producer is filling
  | committing hfree st st' hst hphase hfilling hwiden =>
    rw [hs.widenActive_eq hst] at hwiden
    cases hwiden
    exact keeps_of_stream hst rfl rfl rfl (.setContent hfilling _) hf
  | wrote hfree edits st slot hst hlent =>
    obtain ⟨rfl, hfilling⟩ := (hs.open_line hst).orderly.lent_filling slot hlent
    have hkeeps : st.feed.Keeps (st.write edits).feed := .edit hfilling _ edits
    exact keeps_of_stream hst rfl rfl rfl hkeeps hf
  | stopped hfree st hst hphase => exact keeps_of_stream hst rfl rfl rfl (.refl st.feed) hf
  | restarted hfree st hst hphase t hstart =>
    exact keeps_of_stream hst rfl rfl rfl (.refl st.feed) hf
  | closing hfree st hst =>
    -- the feed goes from the stream to the kept ones, as it is
    refine ⟨f, ?_, .refl f⟩
    rw [feed?_of_closed rfl]
    by_cases hk : k = st.number
    · subst hk
      rw [feed?_of_open hst] at hf
      exact (if_pos rfl).trans hf
    · rw [feed?_of_ne hst hk] at hf
      exact (if_neg hk).trans hf
  | finished c hwait st hst stalled a s hend =>
    cases hend with
    -- these only move the handshake
    | borrow =>
      have hkeeps : st.feed.Keeps (st.borrowed stalled).feed := by
        rw [Stream.feed_borrowed]
        exact .setHandshake _ _
      exact keeps_of_stream hst rfl (st.number_borrowed stalled) rfl hkeeps hf
    | commit =>
      exact keeps_of_stream hst rfl (st.number_handedOver stalled) rfl (st.keeps_handedOver stalled)
        hf
    | start =>
      have hkeeps : st.feed.Keeps { st.handedOver stalled with phase := .playing }.feed :=
        st.keeps_handedOver stalled
      exact keeps_of_stream hst rfl (st.number_handedOver stalled) rfl hkeeps hf
    | refuse =>
      have hkeeps := Feed.Keeps.setHandshake st.feed st.feed.handshake.cleared
      exact keeps_of_stream hst rfl (st.number_handedOver stalled) rfl hkeeps hf
    | drain =>
      exact keeps_of_stream hst rfl (st.number_countStall stalled) rfl
        (by rw [Stream.feed_countStall]; exact .refl _) hf
  | handedOver hwait st hst hphase hblocks hfilling stalled =>
    exact keeps_of_stream hst rfl (st.number_handedOver stalled) rfl (st.keeps_handedOver stalled) hf
  | launched stalled hlaunch st hst t hstart =>
    exact keeps_of_stream hst rfl rfl rfl (.refl st.feed) hf

end

/-! ## 2. Held pulls -/

/-- A live pull, and the bytes that it shows. -/
structure Shows (q : Playback τ) (l : LivePull) (data : Bytes) : Prop where
  mem : l ∈ q.live
  read : ∃ f, q.feed? l.feed = some f ∧ f.read l.pull = data

namespace Sound

variable {l : LivePull} {data : Bytes}

-- A live pull can be dropped.
theorem drop_done (hs : Sound tr p) (hl : l ∈ p.live) (k : Nat) :
    (p.consume k (.drop l.name)).1 = .done := by
  obtain ⟨f, hf⟩ := hs.homes hl
  obtain ⟨f', hdrop⟩ := hs.drop_ok hl hf
  rw [consume_drop k (LivePulls.named?_of_mem hs.names hl) hf hdrop]

-- No step of a device fails a check.
theorem no_fault (hs : Sound tr p) (k : Nat) (c : ConsumerStep) (e : Fault) :
    (p.consume k c).1 ≠ .fault e := by
  have hend := p.consumption k c
  generalize p.consume k c = r at hend
  cases hend with
  | nothing | pulled | held | peeked | dropped =>
    intro h
    cases h
  | faulted name l f d hname hf hdrop =>
    obtain ⟨f', hok⟩ := hs.drop_ok (LivePulls.named?_eq_some hname).1 hf
    rw [hdrop] at hok
    cases hok

-- The slots of a stream that has not been started have no reader while its first commit is under
-- way.
theorem unclaimed_of_opened (hs : Sound tr p) {st : Stream} (hst : p.session.stream = some st)
    (hphase : st.phase = .opened) (hwait : p.producer = .waiting .commit) (s : Slot) :
    p.live.claims st.number s = 0 := by
  have hline := hs.sealed_line hst hwait
  have hempty := (hs.handed_eq_nil_iff (by rw [hwait]; rfl) hst).mpr hphase
  obtain ⟨hactive, -, hb, -⟩ := hline.orderly.unstarted hempty
  have hfilling := hline.orderly.sealed_filling rfl
  replace hactive : st.feed.handshake.active = .a := hactive
  apply hline.orderly.unclaimed
  -- the first slot is being filled, and the second has not been used
  cases s with
  | a =>
    rw [hactive] at hfilling
    rw [hfilling]
    decide
  | b =>
    rw [hb]
    decide

variable [Transport τ]

-- What a live pull shows does not change as long as it is not dropped.
theorem shows_step (hs : Sound tr p) (h : p.Shows l data) {a : Action}
    (ha : ∀ k, a ≠ .device k (.drop l.name)) : (p.step a).2.Shows l data := by
  obtain ⟨hl, f, hf, hread⟩ := h
  -- the pull's slot is being read, so nobody is filling it
  have hfree : ∀ s, l.pull.claimed = some s → f.handshake.state s ≠ .filling := by
    intro s hclaimed
    rw [hs.consumed hl hf hclaimed]
    decide
  rcases p.step_cases a with ⟨k, c, rfl, hstep⟩ | htrans
  · rw [hstep]
    have hend := p.consumption k c
    obtain ⟨f', hf', hkeeps⟩ := hend.keeps hf
    exact ⟨hend.mem_live hl fun hc => ha k (by rw [hc]), f', hf', (hkeeps.read hfree).trans hread⟩
  · obtain ⟨f', hf', hkeeps⟩ := htrans.keeps hs hf
    exact ⟨htrans.live ▸ hl, f', hf', (hkeeps.read hfree).trans hread⟩

theorem shows_run (hs : Sound tr p) (h : p.Shows l data) {as : List Action}
    (has : ∀ k, .device k (.drop l.name) ∉ as) : (p.run as).2.Shows l data := by
  induction as generalizing p tr with
  | nil => exact h
  | cons a rest ih =>
    have hstep := hs.shows_step h fun k hk => has k (hk ▸ List.mem_cons_self)
    exact ih (hs.step a) hstep fun k hk => has k (List.mem_cons_of_mem _ hk)

/-- A pull shows at every later moment what it showed when it was made. -/
theorem peek_run (hs : Sound tr p) {k n : Nat} {name : String} {as : List Action}
    (hheld : (p.consume k (.hold n name)).1 ≠ .nothing)
    (has : ∀ j, .device j (.drop name) ∉ as) (j : Nat) :
    ((((p.consume k (.hold n name)).2.run as).2).consume j (.peek name)).1 =
      (p.consume k (.hold n name)).1 := by
  have hsound := hs.device k (.hold n name)
  have hend := p.consumption k (.hold n name)
  generalize p.consume k (.hold n name) = r at hheld hsound hend
  cases hend with
  | nothing => exact absurd rfl hheld
  | held _ _ f hname hf =>
    have hshows : Shows { p.setFeed k (f.pull n).2 with live := ⟨name, k, (f.pull n).1⟩ :: p.live }
        ⟨name, k, (f.pull n).1⟩ ((f.pull n).2.read (f.pull n).1) := by
      refine ⟨List.mem_cons_self, (f.pull n).2, ?_, rfl⟩
      exact (p.feed?_setFeed k k _).trans (if_pos rfl)
    obtain ⟨hl, g, hg, hread⟩ := hsound.shows_run hshows has
    -- names are unique, so looking the name up finds this very pull
    have hfinal := hsound.run as
    have hfound := LivePulls.named?_of_mem hfinal.names hl
    rw [consume_peek j hfound hg]
    show ConsumerReply.audio (g.read (f.pull n).1) _ _ = _
    rw [hread]
    rfl

end Sound

/-! ## 3. Every run -/

variable [Transport τ]

/-- After every run of any session over any transport:

* a slot is being read exactly while a live pull claims it, and then by that one alone;
* the slot that the producer can write is being filled, and no live pull claims it;
* silence is all zero;
* a pull that is held shows at every later moment what it showed at first, whatever happens;
* a live pull can be dropped, and no step of a device ever fails a check;
* while a first commit can still be refused, which clears the handshake, no slot has a reader. -/
theorem custody (t : τ) (c : Settings) (as : List Action) :
    let p := ((new t c).run as).2
    (∀ k f s, p.feed? k = some f →
      p.live.claims k s = if f.handshake.state s = .consumed then 1 else 0) ∧
    (∀ st s, p.session.stream = some st → p.lent = some s →
      st.feed.handshake.state s = .filling ∧ p.live.claims st.number s = 0) ∧
    (∀ k f, p.feed? k = some f → f.silence = .zeros f.bufferBytes) ∧
    (∀ k n name bs j, (p.consume k (.hold n name)).1 ≠ .nothing →
      (∀ i, .device i (.drop name) ∉ bs) →
      (((p.consume k (.hold n name)).2.run bs).2.consume j (.peek name)).1 =
        (p.consume k (.hold n name)).1) ∧
    (∀ l ∈ p.live, ∀ k, (p.consume k (.drop l.name)).1 = .done) ∧
    (∀ k c e, (p.consume k c).1 ≠ .fault e) ∧
    (∀ st s, p.session.stream = some st → st.phase = .opened → p.producer = .waiting .commit →
      p.live.claims st.number s = 0) := by
  intro p
  have hs : Sound ((new t c).run as).1 p := sound_run t c as
  refine ⟨?_, ?_, ?_, ?_, ?_, hs.no_fault, ?_⟩
  · intro k f s hf
    exact (hs.lines k f hf).orderly.custody s
  · intro st s hst hlent
    have hline := hs.open_line hst
    obtain ⟨-, hfilling⟩ := hline.orderly.lent_filling s hlent
    exact ⟨hfilling, hline.orderly.unclaimed (by rw [hfilling]; decide)⟩
  · intro k f hf
    exact (hs.lines k f hf).sized.silence
  · intro k n name bs j hheld hbs
    exact hs.peek_run hheld hbs j
  · intro l hl k
    exact hs.drop_done hl k
  · intro st s hst hphase hwait
    exact hs.unclaimed_of_opened hst hphase hwait s

/-- A buffer that a device holds on to while the producer fills the other one, and while the stream
is closed and another one opened and filled. -/
theorem custody_across_closing :
    let device : Hardware.Manual := ⟨.linear, 0, true⟩
    let opening : Action := .command (.openStream Allocator.machine ⟨.pcm8, .mono, 8000⟩)
    let filling (x : UInt8) : List Action :=
      [.command (.enter .borrow), .finish false, .command (.write [.fill x])]
    let p := ((new (Hardware.new (.manual device) .none)
        { Settings.standard with frameCount := 4 }).run
      (opening :: filling 7 ++ [.command (.enter .commit), .finish false])).2
    let later : List Action := filling 8 ++ [.command .close, opening] ++ filling 9
    (p.consume 0 (.hold 3 "kept")).1 = .audio #[7, 7, 7] 3 false ∧
      (((p.consume 0 (.hold 3 "kept")).2.run later).2.consume 0 (.peek "kept")).1 =
        .audio #[7, 7, 7] 3 false := by
  intro device opening filling p later
  have hheld : (p.consume 0 (.hold 3 "kept")).1 = .audio #[7, 7, 7] 3 false := by decide +kernel
  have hnot : ∀ i, Action.device i (.drop "kept") ∉ later := by simp [later, filling, opening]
  have hshown := (custody (Hardware.new (.manual device) .none)
    { Settings.standard with frameCount := 4 }
    (opening :: filling 7 ++ [.command (.enter .commit), .finish false])).2.2.2.1 0 3 "kept" later 0
      (by rw [show _ = _ from hheld]; decide) hnot
  exact ⟨hheld, hshown.trans hheld⟩

end Playback

end Playout

import Playout.Proofs.Custody
import Playout.Proofs.Progress
import Playout.Proofs.Replay

/-!
# The echo of a stream with two slots

With two slots the producer never fills the one that was taken last, as long as nothing waits.  So
what was taken last can be heard again at any moment, and whoever listens to it does not hold up the
producer before the next hand-over.
-/

namespace Playout

/-! ## 1. The slot taken last -/

/-- With two slots and nothing waiting, the slot claimed last is not the active one. -/
def Handshake.Trails (h : Handshake) : Prop :=
  h.double = true → (∀ s, h.state s ≠ .ready) → h.last = h.active.other

namespace Handshake

variable {h h' : Handshake}

-- After a hand-over something waits.
theorem trails_handed (h : Handshake) : h.handed.Trails := by
  intro _ hnone
  exact absurd (by rw [state_handed, if_pos rfl]) (hnone h.active)

/-- A consumer that claims what waits has claimed the slot beside the active one. -/
theorem Touched.trails (ht : h.Touched h') (hh : h.Tidy) (htrails : h.Trails) : h'.Trails := by
  induction ht with
  | rest => exact htrails
  | @claim h₁ ht s hmem hready ih =>
    intro hd _
    replace hd : h₁.double = true := hd
    show s = h₁.active.other
    rw [← Slot.ne_iff_eq_other]
    rintro rfl
    exact (ht.tidy hh).active_unready hd hready
  | @reclaim h₁ _ hempty ih =>
    intro hd hnone
    refine ih hd fun s hs => hnone s ?_
    exact state_claimed_of_state (by rw [hempty]; decide) hs
  | @giveBack h₁ _ s hconsumed ih =>
    intro hd hnone
    refine ih hd fun t hs => hnone t ?_
    exact state_giveBack_of_state hconsumed (by decide) hs

end Handshake

/-! ## 2. What the producer makes of it -/

/-- The feed to which an event hands a buffer over. -/
def Event.handsOver? : Event → Option Nat
  | .handedOver k | .answered k .commit _ .done => some k
  | _ => none

namespace Playback

variable {τ : Type} {tr es : List Event} {p q : Playback τ} {st st' : Stream} {k n : Nat}

/-- Whether something has been handed over on this stream. -/
def Started (p : Playback τ) (st : Stream) : Prop :=
  st.phase ≠ .opened ∨ p.producer.isLaunching = true

/-- What an action of the producer makes of the slots of the open stream, which is `st'` after it:
nothing that concerns their turns, or a hand-over, or a fresh start. -/
inductive Turn (p : Playback τ) (es : List Event) (q : Playback τ) (st' : Stream) : Prop where
  | new (hnumber : st'.number = p.session.opens) (hstarted : ¬ q.Started st')
  | same (st : Stream) (hst : p.session.stream = some st) (hnumber : st'.number = st.number)
      (hdouble : st'.feed.handshake.double = st.feed.handshake.double)
      (hactive : st'.feed.handshake.active = st.feed.handshake.active)
      (hlast : st'.feed.handshake.last = st.feed.handshake.last)
      (hready : ∀ s, st.feed.handshake.state s = .ready → st'.feed.handshake.state s = .ready)
      (hstarted : q.Started st' → p.Started st)
  | handed (st : Stream) (hst : p.session.stream = some st) (hnumber : st'.number = st.number)
      (hhanded : st'.feed.handshake = st.feed.handshake.handed)
      (hevent : ∃ e ∈ es, e.handsOver? = some st.number)
  | cleared (st : Stream) (hst : p.session.stream = some st) (hnumber : st'.number = st.number)
      (hcleared : st'.feed.handshake = st.feed.handshake.cleared) (hphase : st.phase = .opened)
      (hlaunch : p.producer.isLaunching = false) (hstarted : ¬ q.Started st')

-- The stream has the handshake it had, and has not just been started.
theorem Turn.of_same (hst : p.session.stream = some st) (hnumber : st'.number = st.number)
    (hhandshake : st'.feed.handshake = st.feed.handshake)
    (hstarted : q.Started st' → p.Started st) : p.Turn es q st' :=
  .same st hst hnumber (by rw [hhandshake]) (by rw [hhandshake]) (by rw [hhandshake])
    (fun s hs => by rwa [hhandshake]) hstarted

theorem Transition.turn [Transport τ] (h : p.Transition es q)
    (hst' : q.session.stream = some st') : p.Turn es q st' := by
  cases h with
  | idle | fault | skipped | paused | resumed | notRestarted | configured | closed =>
    exact .of_same hst' rfl rfl id
  | notOpened hfree hclosed mem requested e s hend => cases hend <;> exact .of_same hst' rfl rfl id
  | opened hfree hclosed mem requested f s hend =>
    cases hend with
    | installed =>
      cases hst'
      exact .new rfl (by simp [Started, hfree, Producer.isLaunching])
  | entered hfree c st hst hphase hc =>
    exact .of_same hst' rfl rfl fun h => .inl (h.resolve_right Bool.false_ne_true)
  | committing hfree st u hst hphase hfilling hwiden =>
    obtain ⟨b, rfl⟩ := Stream.exists_of_widenActive hwiden
    cases hst'
    exact .of_same hst rfl rfl fun h => .inl (h.resolve_right Bool.false_ne_true)
  | wrote hfree edits st slot hst hlent =>
    cases hst'
    exact .of_same hst rfl rfl id
  | stopped hfree st hst hphase | restarted hfree st hst hphase t hstart =>
    cases hst'
    exact .of_same hst rfl rfl fun _ => .inl (by simp [hphase])
  | closing => cases hst'
  | finished c hwait st hst stalled a s hend =>
    cases hend with
    | borrow hfillable hsize =>
      cases hst'
      refine .same st hst (st.number_borrowed stalled) ?_ ?_ ?_ ?_ ?_
      · rw [Stream.feed_borrowed]
        rfl
      · rw [Stream.feed_borrowed]
        rfl
      · rw [Stream.feed_borrowed]
        rfl
      · -- the slot that is filled from now on did not wait
        intro s hs
        rw [Stream.feed_borrowed, Feed.handshake_setHandshake, Handshake.state_setState, if_neg]
        · exact hs
        · rintro rfl
          rw [hs] at hfillable
          simp at hfillable
      · rw [Started, Stream.phase_borrowed]
        exact fun h => .inl (h.resolve_right Bool.false_ne_true)
    | commit hblocks hfilling hphase =>
      cases hst'
      exact .handed st hst (st.number_handedOver stalled) (by rw [Stream.feed_handedOver]; rfl)
        ⟨_, List.mem_singleton.mpr rfl, rfl⟩
    | start hblocks hfilling hphase t hstart =>
      cases hst'
      refine .handed st hst (st.number_handedOver stalled) ?_
        ⟨_, List.mem_singleton.mpr rfl, rfl⟩
      show (st.handedOver stalled).feed.handshake = _
      rw [Stream.feed_handedOver]
      rfl
    | refuse hblocks hfilling hphase e t hstart =>
      cases hst'
      refine .cleared st hst (st.number_handedOver stalled) rfl hphase (by rw [hwait]; rfl) ?_
      rintro (hstarted | hlaunch)
      · exact hstarted ((st.phase_handedOver stalled).trans hphase)
      · cases hlaunch
    | drain hblocks =>
      cases hst'
      refine .of_same hst (st.number_countStall stalled) (by rw [Stream.feed_countStall]) ?_
      rw [Started, Stream.phase_countStall]
      exact fun h => .inl (h.resolve_right Bool.false_ne_true)
  | handedOver hwait st hst hphase hblocks hfilling stalled =>
    cases hst'
    exact .handed st hst (st.number_handedOver stalled) (by rw [Stream.feed_handedOver]; rfl)
      ⟨_, List.mem_singleton.mpr rfl, rfl⟩
  | launched stalled hlaunch st hst t hstart =>
    cases hst'
    exact .of_same hst rfl rfl fun _ => .inr (by rw [hlaunch]; rfl)

/-! ## 3. What every run keeps -/

/-- On a stream that has been started, the slot taken last trails the active one. -/
def Trailing (p : Playback τ) : Prop :=
  ∀ st, p.session.stream = some st → p.Started st → st.feed.handshake.Trails

namespace Trailing

theorem device (ht : Trailing p) (hs : Sound tr p) (k : Nat) (c : ConsumerStep) :
    Trailing (p.consume k c).2 := by
  have hend := p.consumption k c
  intro st' hst' hstarted
  cases hst : p.session.stream with
  | none =>
    rw [hend.closed hst] at hst'
    cases hst'
  | some st =>
    obtain ⟨f, hst'', htouched⟩ := hend.stream hst
    rw [hst'] at hst''
    cases hst''
    rw [Started, hend.producer] at hstarted
    exact htouched.trails (hs.open_line hst).orderly.tidy (ht st hst hstarted)

theorem transition [Transport τ] (ht : Trailing p) (h : p.Transition es q) : Trailing q := by
  intro st' hst' hstarted
  cases h.turn hst' with
  | new _ hnew => exact absurd hstarted hnew
  | same st hst _ hdouble hactive hlast hready hwas =>
    intro hd hnone
    rw [hlast, hactive]
    exact ht st hst (hwas hstarted) (hdouble ▸ hd) fun s hs => hnone s (hready s hs)
  | handed st _ _ hhanded =>
    rw [hhanded]
    exact st.feed.handshake.trails_handed
  | cleared _ _ _ _ _ _ hnot => exact absurd hstarted hnot

end Trailing

theorem trailing_run [Transport τ] (t : τ) (c : Settings) (as : List Action) :
    Trailing ((new t c).run as).2 := by
  have hrun : Sound ((new t c).run as).1 ((new t c).run as).2 ∧ Trailing ((new t c).run as).2 := by
    refine run_induction (motive := fun tr q => Sound tr q ∧ Trailing q) ?_ ?_ as
    · exact ⟨sound_new t c, fun st hst => by cases hst⟩
    · rintro tr q a ⟨hs, ht⟩
      refine ⟨hs.step a, ?_⟩
      rcases q.step_cases a with ⟨k, d, -, hstep⟩ | h
      · rw [hstep]
        exact ht.device hs k d
      · exact ht.transition h
  exact hrun.2

/-! ## 4. Until the next hand-over -/

/-- Since a moment at which stream `k` had this handshake: the stream may have been closed, but as
long as nothing has been handed over to it the producer is where it was. -/
structure Stays (k : Nat) (h : Handshake) (es : List Event) (q : Playback τ) : Prop where
  present : ∃ f, q.feed? k = some f
  same : ∀ st, q.session.stream = some st → st.number = k →
    (∀ e ∈ es, e.handsOver? ≠ some k) →
    st.feed.handshake.double = h.double ∧ st.feed.handshake.active = h.active

namespace Stays

variable {h : Handshake}

theorem device (hk : Stays k h es q) (j : Nat) (c : ConsumerStep) (e : Event) :
    Stays k h (es ++ [e]) (q.consume j c).2 := by
  have hend := q.consumption j c
  obtain ⟨f, hf⟩ := hk.present
  obtain ⟨f', hf', -⟩ := hend.keeps hf
  refine ⟨⟨f', hf'⟩, fun st' hst' hnumber hquiet => ?_⟩
  cases hst : q.session.stream with
  | none =>
    rw [hend.closed hst] at hst'
    cases hst'
  | some st =>
    obtain ⟨g, hst'', htouched⟩ := hend.stream hst
    rw [hst'] at hst''
    cases hst''
    rw [htouched.double, htouched.active]
    exact hk.same st hst hnumber fun e he => hquiet e (List.mem_append_left _ he)

theorem transition [Transport τ] {es' : List Event} {q' : Playback τ} (hk : Stays k h es q)
    (hs : Sound tr q) (ht : q.Transition es' q') : Stays k h (es ++ es') q' := by
  obtain ⟨f, hf⟩ := hk.present
  obtain ⟨f', hf', -⟩ := ht.keeps hs hf
  refine ⟨⟨f', hf'⟩, fun st' hst' hnumber hquiet => ?_⟩
  have hbefore : ∀ e ∈ es, e.handsOver? ≠ some k := fun e he =>
    hquiet e (List.mem_append_left _ he)
  cases ht.turn hst' with
  | new hnew =>
    -- a new stream has a new number
    have hlt := hs.numbers hf
    omega
  | same st hst hsame hdouble hactive =>
    rw [hdouble, hactive]
    exact hk.same st hst (hsame ▸ hnumber) hbefore
  | handed st _ hsame _ hevent =>
    obtain ⟨e, he, hover⟩ := hevent
    exact absurd (hover.trans (by rw [← hsame, hnumber])) (hquiet e (List.mem_append_right _ he))
  | cleared st hst hsame hcleared hphase hlaunch =>
    -- clearing turns to the first slot, and no other has been filled so far
    have hempty := (hs.handed_eq_nil_iff hlaunch hst).mpr hphase
    obtain ⟨hactive, -⟩ := (hs.open_line hst).orderly.unstarted hempty
    replace hactive : st.feed.handshake.active = .a := hactive
    obtain ⟨hd, ha⟩ := hk.same st hst (hsame ▸ hnumber) hbefore
    rw [hcleared]
    exact ⟨hd, hactive.symm.trans ha⟩

end Stays

theorem Sound.stays [Transport τ] (hs : Sound tr p) (hst : p.session.stream = some st)
    (as : List Action) : Stays st.number st.feed.handshake (p.run as).1 (p.run as).2 := by
  have hrun : Sound (tr ++ (p.run as).1) (p.run as).2 ∧
      Stays st.number st.feed.handshake (p.run as).1 (p.run as).2 := by
    refine run_induction (motive := fun es q => Sound (tr ++ es) q ∧
      Stays st.number st.feed.handshake es q) ⟨?_, ⟨_, feed?_of_open hst⟩, ?_⟩ ?_ as
    · exact hs.run []
    · intro u hu _ _
      rw [hst] at hu
      cases hu
      exact ⟨rfl, rfl⟩
    · rintro es q a ⟨hq, hk⟩
      rw [← List.append_assoc]
      refine ⟨hq.step a, ?_⟩
      rcases q.step_cases a with ⟨j, c, -, hstep⟩ | ht
      · rw [hstep]
        exact hk.device j c _
      · exact hk.transition hq ht
  exact hrun.2

/-! ## 5. Replays -/

-- Nobody but a device uses the slot beside the active one, once it has been taken.
theorem Sound.last_empty (hs : Sound tr p) (hst : p.session.stream = some st)
    (hlast : st.feed.handshake.last = st.feed.handshake.active.other)
    (hnone : ∀ s, st.feed.handshake.state s ≠ .ready)
    (hfree : ∀ l ∈ p.live, l.feed = st.number →
      l.pull.claimed ≠ some st.feed.handshake.last) :
    st.feed.handshake.state st.feed.handshake.last = .empty := by
  cases hstate : st.feed.handshake.state st.feed.handshake.last with
  | empty => rfl
  | filling =>
    have hactive := (hs.open_line hst).orderly.shaped.filling_active _ hstate
    rw [hlast] at hactive
    exact absurd hactive (Slot.other_ne _)
  | ready => exact absurd hstate (hnone _)
  | consumed =>
    obtain ⟨l, hl, hfeed, hclaimed⟩ := hs.reader (feed?_of_open hst) hstate
    exact absurd hclaimed (hfree l hl hfeed)

/-- A replay that is held stays out of the producer's way until the next hand-over. -/
theorem Sound.replay_aside [Transport τ] (hs : Sound tr p) (hst : p.session.stream = some st)
    (hlast : st.feed.handshake.last = st.feed.handshake.active.other)
    (hdouble : st.feed.handshake.double = true)
    (hgrant : st.feed.grant n ≠ 0) (hnone : ∀ s, st.feed.handshake.state s ≠ .ready)
    (hback : st.feed.fallback = .replay)
    (hempty : st.feed.handshake.state st.feed.handshake.last = .empty) {name : String}
    (hname : p.live.named? name = none) {as : List Action}
    (has : ∀ j, .device j (.drop name) ∉ as) {q : Playback τ} {es : List Event}
    (hrun : (p.consume st.number (.hold n name)).2.run as = (es, q))
    (hquiet : ∀ e ∈ es, e.handsOver? ≠ some st.number) :
    (∃ l ∈ q.live, l.name = name ∧ l.feed = st.number ∧
      l.pull.claimed = some st.feed.handshake.last) ∧
    ∀ st', q.session.stream = some st' → st'.number = st.number →
      st'.feed.handshake.active ≠ st.feed.handshake.last ∧
      (st'.blocks .borrow = true → ∃ l ∈ q.live, l.name ≠ name ∧ l.feed = st.number ∧
        l.pull.claimed = some st'.feed.handshake.active) := by
  have hpull := Feed.pull_of_replay hgrant hnone hback hempty
  have hhold := consume_hold (n := n) hname (feed?_of_open hst)
  have hsound := hs.device st.number (.hold n name)
  rw [hhold, hpull] at hsound hrun
  -- the pull and the stream right after it was made
  generalize hl : (⟨name, st.number, ⟨some st.feed.handshake.last, st.feed.grant n, 0⟩⟩ :
    LivePull) = l at hsound hrun
  generalize hf : ({ st.feed.setHandshake (st.feed.handshake.claimed st.feed.handshake.last) with
    counters := st.feed.counters.addUnderrun } : Feed) = f at hsound hrun
  have hst₁ : (p.setFeed st.number f).session.stream = some { st with feed := f } := by
    rw [stream_setFeed, hst, Option.map_some, if_pos rfl]
  have hshows : Shows { p.setFeed st.number f with live := l :: p.live } l (f.read l.pull) := by
    refine ⟨List.mem_cons_self, f, ?_, rfl⟩
    subst hl
    exact (p.feed?_setFeed st.number st.number f).trans (if_pos rfl)
  have hlname : l.name = name := by rw [← hl]
  have hkept : ∀ j, .device j (.drop l.name) ∉ as := by rwa [hlname]
  have hmem := (hsound.shows_run hshows hkept).mem
  have hstays := hsound.stays hst₁ as
  have hend := hsound.run as
  rw [hrun] at hmem hstays hend
  refine ⟨⟨l, hmem, hlname, by rw [← hl], by rw [← hl]⟩, fun st' hst' hnumber => ?_⟩
  obtain ⟨hd, ha⟩ := hstays.same st' hst' hnumber hquiet
  replace hd : st'.feed.handshake.double = true := hd.trans (by rw [← hf]; exact hdouble)
  replace ha : st'.feed.handshake.active = st.feed.handshake.active :=
    ha.trans (by rw [← hf]; rfl)
  have hne : st'.feed.handshake.active ≠ st.feed.handshake.last := by
    rw [ha, hlast]
    exact (Slot.other_ne _).symm
  refine ⟨hne, fun hblocks => ?_⟩
  have hline := (hend.open_line hst').orderly
  obtain hready | hconsumed := (Stream.blocks_iff hline.shaped .borrow).mp hblocks
  · exact absurd hready (hline.tidy.active_unready hd)
  · obtain ⟨x, hx, hfeed, hclaimed⟩ := hend.reader (feed?_of_open hst') hconsumed
    refine ⟨x, hx, ?_, hfeed.trans hnumber, hclaimed⟩
    -- a name is used once, and the pull of this one claims another slot
    intro hxname
    have hfound := LivePulls.named?_of_mem hend.names hx
    rw [hxname, ← hlname, LivePulls.named?_of_mem hend.names hmem] at hfound
    cases hfound
    rw [← hl] at hclaimed
    exact hne (Option.some.inj hclaimed).symm

/-! ## 6. Every run -/

variable [Transport τ]

/-- After every run of any session over any transport, for its open stream, if that has two slots and
falls back on replays, a device has taken something from it and nothing waits:

* the slot taken last is the one beside the active one;
* unless a live pull still claims that slot, a device that asks for any number of bytes but none gets
  the first of them of the last buffer that was taken, whatever the producer is doing;
* a device that keeps such a replay claims that slot for as long as it does; until the next buffer is
  handed over the active slot is the other one, and where `borrow` has to wait it is for another live
  pull, which claims the active slot. -/
theorem echo_stays (t : τ) (c : Settings) (as : List Action) :
    let tr := ((new t c).run as).1
    let p := ((new t c).run as).2
    ∀ st, p.session.stream = some st →
      let h := st.feed.handshake
      h.double = true → st.feed.fallback = .replay → (ledger st.number tr).taken ≠ [] →
      (∀ s, h.state s ≠ .ready) →
      h.last = h.active.other ∧
      ((∀ l ∈ p.live, l.feed = st.number → l.pull.claimed ≠ some h.last) →
        ∃ page, (ledger st.number tr).played = some page ∧ page.size = st.feed.bufferBytes ∧
        ∀ n, n ≠ 0 →
          (p.consume st.number (.pull n)).1 = .audio (page.first n) 0 true ∧
          ∀ name, p.live.named? name = none →
            (p.consume st.number (.hold n name)).1 = .audio (page.first n) 0 true ∧
            ∀ bs, let r := (p.consume st.number (.hold n name)).2.run bs
              (∀ j, .device j (.drop name) ∉ bs) →
              (∀ e ∈ r.1, e.handsOver? ≠ some st.number) →
              (∃ l ∈ r.2.live, l.name = name ∧ l.feed = st.number ∧
                l.pull.claimed = some h.last) ∧
              ∀ st', r.2.session.stream = some st' → st'.number = st.number →
                st'.feed.handshake.active ≠ h.last ∧
                (st'.blocks .borrow = true → ∃ l ∈ r.2.live, l.name ≠ name ∧
                  l.feed = st.number ∧ l.pull.claimed = some st'.feed.handshake.active)) := by
  intro tr p st hst h hdouble hback htaken hnone
  have hs : Sound tr p := sound_run t c as
  have hline := hs.open_line hst
  have hle : (ledger st.number tr).taken.length ≤ (ledger st.number tr).handed.length :=
    hline.faithful.taken_le
  -- what has been taken has been handed over before
  have hstarted : p.Started st := by
    refine Classical.byContradiction fun hnot => ?_
    rw [Started, not_or, Classical.not_not, Bool.not_eq_true] at hnot
    rw [(hs.started st hst).mpr hnot] at hle
    exact htaken (List.eq_nil_of_length_eq_zero (Nat.le_zero.mp hle))
  have hlast : h.last = h.active.other := trailing_run t c as st hst hstarted hdouble hnone
  refine ⟨hlast, fun hfree => ?_⟩
  have hempty := hs.last_empty hst hlast hnone hfree
  obtain ⟨page, hplayed⟩ : ∃ page, (ledger st.number tr).played = some page :=
    Option.ne_none_iff_exists'.mp fun hnot => htaken ((Ledger.played_eq_none hle).mp hnot)
  have hcontent : st.feed.content h.last = page := by
    have hecho : st.feed.content h.last = (ledger st.number tr).echo st.feed.bufferBytes :=
      hline.faithful.echo (.inl hempty)
    rw [hecho, Ledger.echo, hplayed, Option.getD_some]
  have hsize : page.size = st.feed.bufferBytes := by
    rw [← hcontent]
    exact hline.sized.content _ hline.orderly.shaped.last_mem
  refine ⟨page, hplayed, hsize, fun n hn => ?_⟩
  have hgrant : st.feed.grant n ≠ 0 := by
    have hbytes := ((intact_run t c as).sturdy st hst).room
    rw [Feed.grant]
    omega
  have hpull := Feed.pull_of_replay hgrant hnone hback hempty
  have hview : (st.feed.pull n).2.view (st.feed.pull n).1 = .audio (page.first n) 0 true := by
    rw [hpull, Feed.view]
    have hread : (st.feed.content h.last).first (st.feed.grant n) = page.first n := by
      rw [hcontent, Feed.grant, ← hsize, Bytes.first_min_size]
    have hunderrun : Pull.isUnderrun ⟨some h.last, st.feed.grant n, 0⟩ = true := by
      simp [Pull.isUnderrun, hgrant]
    rw [hunderrun, ← hread]
    rfl
  obtain ⟨f, hdrop⟩ := st.feed.drop_pull_ok n
  refine ⟨?_, fun name hname => ⟨?_, ?_⟩⟩
  · rw [consume_pull (feed?_of_open hst) hdrop]
    exact hview
  · rw [consume_hold hname (feed?_of_open hst)]
    exact hview
  · intro bs r hbs hquiet
    exact hs.replay_aside hst hlast hdouble hgrant hnone hback hempty hname hbs rfl hquiet

/-- A device that has taken the first buffer hears it again and keeps it, while the producer writes
the second one and asks for it once more. -/
theorem echo_stays_while_filling :
    let device : Hardware.Manual := ⟨.linear, 0, true⟩
    let borrowing : List Action := [.command (.enter .borrow), .finish false]
    let p := ((new (Hardware.new (.manual device) .none)
        { Settings.standard with frameCount := 4 }).run
      (.command (.openStream Allocator.machine ⟨.pcm8, .mono, 8000⟩) :: borrowing ++
        [.command (.write [.fill 7]), .command (.enter .commit), .finish false,
          .device 0 (.pull 4)] ++ borrowing)).2
    let r := (p.consume 0 (.hold 3 "again")).2.run (.command (.write [.fill 8]) :: borrowing)
    (p.consume 0 (.hold 3 "again")).1 = .audio #[7, 7, 7] 0 true ∧
      (∃ l ∈ r.2.live, l.name = "again" ∧ l.feed = 0 ∧ l.pull.claimed = some .a) ∧
      ∀ st, r.2.session.stream = some st → st.number = 0 → st.feed.handshake.active ≠ .a := by
  intro device borrowing p r
  have hslots : p.session.stream.map (fun st => (st.number, st.feed.handshake.double,
      st.feed.fallback, st.feed.handshake.last, st.feed.handshake.state .a,
      st.feed.handshake.state .b)) = some (0, true, .replay, .a, .empty, .filling) := by
    decide +kernel
  have hheard : (p.consume 0 (.hold 3 "again")).1 = .audio #[7, 7, 7] 0 true := by decide +kernel
  have hlive : p.live = [] := by decide +kernel
  have hquiet : ∀ e ∈ r.1, e.handsOver? ≠ some 0 := by decide +kernel
  obtain ⟨st, hst, hall⟩ := Option.map_eq_some_iff.mp hslots
  simp only [Prod.mk.injEq] at hall
  obtain ⟨hnumber, hdouble, hback, hlast, ha, hb⟩ := hall
  have hnone : ∀ s, st.feed.handshake.state s ≠ .ready := by
    intro s
    cases s <;> simp [ha, hb]
  have hstays := echo_stays (Hardware.new (.manual device) .none)
    { Settings.standard with frameCount := 4 }
    (.command (.openStream Allocator.machine ⟨.pcm8, .mono, 8000⟩) :: borrowing ++
      [.command (.write [.fill 7]), .command (.enter .commit), .finish false,
        .device 0 (.pull 4)] ++ borrowing)
  have htaken := hstays st hst hdouble hback
    (by rw [hnumber]; decide +kernel) hnone
  obtain ⟨-, hecho⟩ := htaken
  rw [hnumber, hlast] at hecho
  obtain ⟨page, -, -, hpulls⟩ := hecho fun l hl => by rw [hlive] at hl; cases hl
  obtain ⟨-, hnamed⟩ := hpulls 3 (by decide)
  obtain ⟨-, hheld⟩ := hnamed "again" (by rw [hlive]; rfl)
  obtain ⟨hmem, hturn⟩ := hheld (.command (.write [.fill 8]) :: borrowing)
    (by simp [borrowing]) hquiet
  exact ⟨hheard, hmem, fun st' hst' hsame => (hturn st' hst' hsame).1⟩

end Playback

end Playout

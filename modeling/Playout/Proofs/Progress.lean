import Playout.Proofs.Intact

/-!
# Progress

A call of the producer waits exactly as long as the slots stand in its way, and one completed pull
clears the way: it takes the slot that waits, if there is one, and leaves no slot in a device's
hands.  This holds of everything that can happen in `Playback.play`.  Only where somebody gives back
the very buffer that is about to be committed, the commit does not wait, and has nothing to hand
over.
-/

namespace Playout

/-! ## 1. What stands in the way -/

/-- What a call has to wait for. -/
def Handshake.Hinders (h : Handshake) : Call → Prop
  | .borrow => h.state h.active = .ready ∨ h.state h.active = .consumed
  | .commit => h.double = true ∧ h.state h.active.other = .ready
  | .drain => ∃ s, h.state s = .ready

namespace Handshake

variable {h : Handshake}

theorem isFillable_eq_false_iff :
    h.isFillable = false ↔ h.state h.active = .ready ∨ h.state h.active = .consumed := by
  unfold isFillable
  cases h.state h.active <;> simp [SlotState.isFillable]

theorem siblingReady_iff :
    h.siblingReady = true ↔ h.double = true ∧ h.state h.active.other = .ready := by
  simp [siblingReady]

-- A slot that takes no part does not wait.
theorem Shaped.hasReady_iff (hh : h.Shaped) : h.hasReady = true ↔ ∃ s, h.state s = .ready := by
  simp only [hasReady, List.any_eq_true, decide_eq_true_eq]
  exact ⟨fun ⟨s, _, hs⟩ => ⟨s, hs⟩, fun ⟨s, hs⟩ => ⟨s, hh.ready_mem hs, hs⟩⟩

/-- Where no slot waits and none is being read, nothing stands in the way of any call. -/
theorem not_hinders (hready : ∀ s, h.state s ≠ .ready) (hconsumed : ∀ s, h.state s ≠ .consumed)
    (c : Call) : ¬ h.Hinders c := by
  intro hinders
  cases c with
  | borrow =>
    rcases hinders with hr | hc
    · exact hready _ hr
    · exact hconsumed _ hc
  | commit => exact hready _ hinders.2
  | drain =>
    obtain ⟨s, hs⟩ := hinders
    exact hready s hs

end Handshake

theorem Stream.blocks_iff {st : Stream} (hh : st.feed.handshake.Shaped) (c : Call) :
    st.blocks c = true ↔ st.feed.handshake.Hinders c := by
  cases c with
  | borrow =>
    rw [Stream.blocks, Bool.not_eq_true']
    exact Handshake.isFillable_eq_false_iff
  | commit => exact Handshake.siblingReady_iff
  | drain => exact hh.hasReady_iff

-- A pull that asked for something leaves no slot waiting: it has taken the only one there was.
theorem Feed.none_ready_of_pull {f f' : Feed} {n : Nat} (hf : f.handshake.Tidy)
    (hgrant : f.grant n ≠ 0) (hdrop : (f.pull n).2.drop (f.pull n).1 = .ok f') (s : Slot) :
    f'.handshake.state s ≠ .ready := by
  refine (Feed.touched_drop hdrop).unready ?_
  have hpull := f.pulled n
  generalize f.pull n = r at hpull
  have hmember : (∀ t ∈ f.handshake.members, f.handshake.state t ≠ .ready) →
      f.handshake.state s ≠ .ready := fun hnone hs => hnone s (hf.ready_mem hs) hs
  cases hpull with
  | nothing hzero => exact absurd hzero hgrant
  | delivered t _ hmem hready =>
    intro hs
    obtain ⟨hne, hs⟩ := Handshake.state_of_state_claimed (by decide) hs
    exact hne (hf.ready_unique hs hready)
  | replayed _ hnone =>
    intro hs
    exact hmember hnone (Handshake.state_of_state_claimed (by decide) hs).2
  | silent _ hnone => exact hmember hnone

/-- The buffer of the call is there: whoever commits has something to hand over. -/
def Handshake.Provides (h : Handshake) (c : Call) : Prop :=
  c = .commit → h.state h.active = .filling

namespace Playback

variable {τ : Type} [Transport τ] {tr : List Event} {p q : Playback τ} {st : Stream}

/-! ## 2. Entering and finishing -/

/-- The next attempt finishes the call that is under way. -/
def Completes (p : Playback τ) (c : Call) (stalled : Bool) : Prop :=
  ∃ k a q, p.step (.finish stalled) = ([.answered k c stalled a], q) ∧ q.producer = .free

/-- The next attempt leaves the call that is under way where it is. -/
def Stuck (p : Playback τ) : Prop := ∀ stalled, p.step (.finish stalled) = ([], p)

/-- What comes of the next attempt. -/
inductive Attempt (p : Playback τ) (c : Call) (stalled : Bool) (h : Handshake) : Prop where
  | waits (hinders : h.Hinders c) (hstep : p.step (.finish stalled) = ([], p))
  | completes (hinders : ¬ h.Hinders c) (hprovides : h.Provides c)
      (hgo : p.Completes c stalled)
  -- A commit without its buffer.
  | breaks (hinders : ¬ h.Hinders c) (hprovides : ¬ h.Provides c)
      (hstep : p.step (.finish stalled) = ([.fault (.defect .handOver)], p))

/-- A call that is under way goes on waiting where something stands in its way, and is finished
where nothing does. -/
theorem Intact.attempt (hi : Intact p) (hs : Settled tr p) {c : Call}
    (hwait : p.producer = .waiting c) (hst : p.session.stream = some st) (stalled : Bool) :
    p.Attempt c stalled st.feed.handshake := by
  have hblocks := Stream.blocks_iff (hs.tidy st hst).toShaped c
  have hclear : st.blocks c = false → ¬ st.feed.handshake.Hinders c := by
    intro hb hinders
    rw [hblocks.mpr hinders] at hb
    cases hb
  have hend := Session.finishing hst c stalled
  have hstep : p.step (.finish stalled) = p.finish stalled := rfl
  rw [Playback.finish, hwait, hst] at hstep
  obtain ⟨r, hr⟩ : ∃ r, p.session.finish c stalled = r := ⟨_, rfl⟩
  simp only [hr] at hstep
  rw [hr] at hend
  cases hend with
  | blocked _ hb => exact .waits (hblocks.mp hb) hstep
  | borrow hfillable hsize =>
    refine .completes (fun hinders => ?_) nofun ⟨_, _, _, hstep, rfl⟩
    rcases hfillable with h | h <;> simp [Handshake.Hinders, h] at hinders
  | commit hb hfilling | start hb hfilling | refuse hb hfilling =>
    exact .completes (hclear hb) (fun _ => hfilling) ⟨_, _, _, hstep, rfl⟩
  | drain hb => exact .completes (hclear hb) nofun ⟨_, _, _, hstep, rfl⟩
  | tooSmall hsize =>
    have hcontent := (hi.sturdy st hst).sized _ (hs.tidy st hst).active_mem
    have hle := st.producerBytes_le
    omega
  | notFilling hfilling =>
    refine .breaks (fun hinders => ?_) (fun hprovides => hfilling (hprovides rfl)) hstep
    -- whoever waits does not look for the buffer yet
    simp [Session.finish, hst, Session.finishCommit, hblocks.mpr hinders] at hr

theorem Intact.waits_iff (hi : Intact p) (hs : Settled tr p) {c : Call}
    (hwait : p.producer = .waiting c) (hst : p.session.stream = some st) :
    (p.Stuck ↔ st.feed.handshake.Hinders c) ∧
      ((∀ stalled, p.Completes c stalled) ↔
        ¬ st.feed.handshake.Hinders c ∧ st.feed.handshake.Provides c) := by
  have hattempt := fun stalled => hi.attempt hs hwait hst stalled
  constructor
  · constructor
    · intro hstuck
      cases hattempt true with
      | waits hinders => exact hinders
      | completes _ _ hgo =>
        obtain ⟨k, a, q, hstep, -⟩ := hgo
        rw [hstuck] at hstep
        cases hstep
      | breaks _ _ hstep =>
        rw [hstuck] at hstep
        cases hstep
    · intro hinders stalled
      cases hattempt stalled with
      | waits _ hstep => exact hstep
      | completes hno | breaks hno => exact absurd hinders hno
  · constructor
    · intro hgo
      obtain ⟨k, a, q, hdone, -⟩ := hgo true
      cases hattempt true with
      | waits _ hstep | breaks _ _ hstep =>
        rw [hstep] at hdone
        cases hdone
      | completes hinders hprovides => exact ⟨hinders, hprovides⟩
    · intro ⟨hinders, hprovides⟩ stalled
      cases hattempt stalled with
      | waits hyes => exact absurd hyes hinders
      | completes _ _ hgo => exact hgo
      | breaks _ hno => exact absurd hprovides hno

omit [Transport τ] in
-- A call that the contract allows is entered, and the slots stay as they are.
theorem Intact.enter_eq (hi : Intact p) (hs : Settled tr p) (hst : p.session.stream = some st)
    (hphase : st.phase ≠ .paused) {c : Call} (hprovides : st.feed.handshake.Provides c) :
    ∃ st', st'.feed.handshake = st.feed.handshake ∧
      p.session.enter c = .ok (.pending (p.session.setStream st')) := by
  have hsame : p.session.setStream st = p.session := by rw [Session.setStream, ← hst]
  have hstate : p.session.state = .opened ∨ p.session.state = .playing := by
    rw [Session.state, hst]
    cases hp : st.phase with
    | opened => exact .inl (by simp [hp, Phase.state])
    | playing => exact .inr (by simp [hp, Phase.state])
    | paused => exact absurd hp hphase
  cases c with
  | borrow | drain =>
    refine ⟨st, rfl, ?_⟩
    rcases hstate with h | h <;> simp only [Session.enter, h, hsame]
  | commit =>
    have henter : p.session.enter .commit = p.session.enterCommit st := by
      simp only [Session.enter, hst]
      split
      next hp => exact absurd hp hphase
      next => rfl
      next => rfl
    obtain ⟨st', hwiden, -, hsame⟩ := (hi.sturdy st hst).widen (hs.tidy st hst).active_mem
    refine ⟨st', hsame, ?_⟩
    rw [henter]
    simp only [Session.enterCommit, hprovides rfl, ne_eq, not_true_eq_false, if_false, hwiden]

/-- A call that the contract allows is under way once it has been entered. -/
theorem Intact.enter_waits (hi : Intact p) (hs : Settled tr p) (hfree : p.producer = .free)
    (hst : p.session.stream = some st) (hphase : st.phase ≠ .paused) {c : Call}
    (hprovides : st.feed.handshake.Provides c) :
    (p.step (.command (.enter c))).2.producer = .waiting c ∧
      ∃ st', (p.step (.command (.enter c))).2.session.stream = some st' ∧
        st'.feed.handshake = st.feed.handshake := by
  obtain ⟨st', hsame, henter⟩ := hi.enter_eq hs hst hphase hprovides
  have hstep : p.step (.command (.enter c)) =
      ([], { p with session := p.session.setStream st', producer := .waiting c }) := by
    rw [Playback.step, hfree]
    simp only [command, Playback.enter, henter]
  rw [hstep]
  exact ⟨rfl, st', rfl, hsame⟩

/-! ## 3. Clearing the way -/

/-- Whether a move is one of a device. -/
def Move.isDevice : Move → Bool
  | .act (.device _ _) | .stray _ _ => true
  | _ => false

/-- Whether a move gives back a slot without a pull. -/
def Move.isStray : Move → Bool
  | .stray _ _ => true
  | _ => false

-- Devices leave a call under way, and it is a call on the same stream.
theorem play_devices {ds : List Move} (hds : ∀ m ∈ ds, m.isDevice = true)
    (hst : p.session.stream = some st) :
    (p.play ds).2.producer = p.producer ∧
      ∃ f, (p.play ds).2.session.stream = some { st with feed := f } ∧
        ((∀ m ∈ ds, m.isStray = false) → st.feed.handshake.Touched f.handshake) := by
  induction ds generalizing p st with
  | nil => exact ⟨rfl, st.feed, hst, fun _ => .rest⟩
  | cons m ds ih =>
    have hrest : ∀ m' ∈ ds, m'.isDevice = true := fun m' hm' => hds m' (.tail _ hm')
    have hm := hds m (.head _)
    cases m with
    | act a =>
      cases a with
      | device k c =>
        have hend := p.consumption k c
        obtain ⟨f, hst', htouched⟩ := hend.stream hst
        obtain ⟨hproducer, g, hst'', htouched'⟩ := ih hrest hst'
        exact ⟨hproducer.trans hend.producer, g, hst'', fun hno =>
          htouched.trans (htouched' fun m hm => hno m (.tail _ hm))⟩
      | command | finish | handOver | launch => cases hm
    | stray k s =>
      have hstray : (p.stray k s).producer = p.producer ∧
          ∃ f, (p.stray k s).session.stream = some { st with feed := f } := by
        unfold stray
        split
        next => exact ⟨rfl, st.feed, hst⟩
        next f hfeed =>
          refine ⟨p.producer_setFeed _ _, ?_⟩
          rw [stream_setFeed, hst, Option.map_some]
          split
          · exact ⟨_, rfl⟩
          · exact ⟨st.feed, rfl⟩
      obtain ⟨hkept, f, hst'⟩ := hstray
      obtain ⟨hproducer, g, hst'', -⟩ := ih hrest hst'
      exact ⟨hproducer.trans hkept, g, hst'', fun hno => by cases hno _ (.head _)⟩
    | refuse | abandon | proceed => cases hm

/-- Drops of the pulls of these names. -/
def drops (k : Nat) (names : List String) : List Move :=
  names.map fun name => .act (.device k (.drop name))

omit [Transport τ] in
-- A pull that is dropped is gone, whether its slot was being read or not.
theorem Intact.live_drop (hi : Intact p) (k : Nat) (name : String) :
    (p.consume k (.drop name)).2.live = p.live.without name := by
  cases hname : p.live.named? name with
  | none =>
    rw [LivePulls.without_eq_self (LivePulls.named?_eq_none hname)]
    simp [consume, ConsumerStep.run, ConsumerStep.run.find, hname]
  | some l =>
    obtain ⟨f, hf⟩ := hi.homes (LivePulls.named?_eq_some hname).1
    cases hdrop : f.drop l.pull with
    | ok f' => rw [consume_drop k hname hf hdrop]
    | error d =>
      simp [consume, ConsumerStep.run, ConsumerStep.run.find, FeedStore.feed?, hf, hname, hdrop]

theorem Intact.live_drops (hi : Intact p) (k : Nat) (names : List String) :
    ∀ l ∈ (p.play (drops k names)).2.live, l ∈ p.live ∧ l.name ∉ names := by
  induction names generalizing p with
  | nil => exact fun l hl => ⟨hl, List.not_mem_nil⟩
  | cons name names ih =>
    intro l hl
    obtain ⟨hmem, hnames⟩ := ih (hi.device k (.drop name)) l hl
    rw [hi.live_drop] at hmem
    have hne : l.name ≠ name := by simpa using (List.mem_filter.mp hmem).2
    exact ⟨LivePulls.mem_of_mem_without hmem, by simp [hne, hnames]⟩

theorem Intact.live_eq_nil (hi : Intact p) (k : Nat) {names : List String}
    (hnames : ∀ l ∈ p.live, l.name ∈ names) : (p.play (drops k names)).2.live = [] := by
  apply List.eq_nil_iff_forall_not_mem.mpr
  intro l hl
  obtain ⟨hmem, hnot⟩ := hi.live_drops k names l hl
  exact hnot (hnames l hmem)

omit [Transport τ] in
/-- One completed pull, with no other alive, clears the way of every call. -/
theorem Intact.clear_of_pull (hi : Intact p) (hs : Settled tr p) (hst : p.session.stream = some st)
    (hlive : p.live = []) {n : Nat} (hn : n ≠ 0) :
    ∃ f, (p.consume st.number (.pull n)).2.session.stream = some { st with feed := f } ∧
      st.feed.handshake.Touched f.handshake ∧ ∀ c, ¬ f.handshake.Hinders c := by
  obtain ⟨f, hdrop⟩ := st.feed.drop_pull_ok n
  have htouched := (st.feed.touched_pull n).trans (Feed.touched_drop hdrop)
  have hgrant : st.feed.grant n ≠ 0 := by
    have hroom := (hi.sturdy st hst).room
    show min n st.feed.bufferBytes ≠ 0
    omega
  have hintact := hi.device st.number (.pull n)
  rw [consume_pull (feed?_of_open hst) hdrop] at hintact ⊢
  have hst' : (p.setFeed st.number f).session.stream = some { st with feed := f } := by
    rw [stream_setFeed, hst, Option.map_some, if_pos rfl]
  refine ⟨f, hst', htouched, Handshake.not_hinders ?_ fun s hconsumed => ?_⟩
  · exact Feed.none_ready_of_pull (hs.tidy st hst) hgrant hdrop
  · obtain ⟨l, hl, -⟩ := hintact.readers _ _ (feed?_of_open hst') s hconsumed
    rw [live_setFeed, hlive] at hl
    cases hl

theorem play_append (p : Playback τ) (ms ds : List Move) :
    (p.play (ms ++ ds)).2 = ((p.play ms).2.play ds).2 := by
  induction ms generalizing p with
  | nil => rfl
  | cons m ms ih => exact ih (p.move m).2

/-- Where devices have dropped all live pulls of whatever feed, one more pull lets the call under way
go on; and it is finished, unless somebody has given back its buffer. -/
theorem Intact.goes_on (hi : Intact p) (hs : Settled tr p) {c : Call}
    (hwait : p.producer = .waiting c) (hst : p.session.stream = some st) {ds : List Move}
    (hds : ∀ m ∈ ds, m.isDevice = true) (hlive : (p.play ds).2.live = []) {n : Nat} (hn : n ≠ 0) :
    ¬ (p.play (ds ++ [.act (.device st.number (.pull n))])).2.Stuck ∧
      ((∀ m ∈ ds, m.isStray = false) → st.feed.handshake.Provides c →
        ∀ stalled, (p.play (ds ++ [.act (.device st.number (.pull n))])).2.Completes c stalled) := by
  obtain ⟨hproducer, f, hst', htouched⟩ := play_devices hds hst
  have hi' := hi.play hs ds
  have hs' := hs.play ds
  rw [play_append]
  obtain ⟨g, hst'', htouched', hclear⟩ := hi'.clear_of_pull hs' hst' hlive hn
  have hend := (p.play ds).2.consumption st.number (.pull n)
  have hwait' := (hend.producer.trans hproducer).trans hwait
  have hiff := (hi'.device st.number (.pull n)).waits_iff (hs'.device st.number (.pull n)) hwait'
    hst''
  refine ⟨fun hstuck => hclear c (hiff.1.mp hstuck), fun hno hprovides => ?_⟩
  -- nobody but a stray takes the buffer that is being filled
  have hall := (htouched hno).trans htouched'
  refine hiff.2.mpr ⟨hclear c, fun hc => ?_⟩
  show g.handshake.state g.handshake.active = .filling
  rw [hall.active]
  exact hall.filling (hprovides hc)

/-! ## 4. Buffers of commits -/

/-- The call under way has its buffer. -/
def Provided (p : Playback τ) : Prop := ∀ c, p.producer = .waiting c →
  ∀ st, p.session.stream = some st → st.feed.handshake.Provides c

namespace Provided

omit [Transport τ] in
theorem of_idle (h : ∀ c, p.producer ≠ .waiting c) : p.Provided := fun c hc => absurd hc (h c)

omit [Transport τ] in
theorem of_same (h : p.Provided) (hproducer : q.producer = p.producer)
    (hstream : q.session.stream = p.session.stream) : q.Provided := by
  intro c hc st hst
  exact h c (hproducer ▸ hc) st (hstream ▸ hst)

theorem transition {es : List Event} (h : p.Provided) (ht : p.Transition es q) : q.Provided := by
  have hfree : p.producer = .free → q.producer = p.producer → q.Provided := by
    intro hp hq
    exact of_idle (by simp [hq, hp])
  cases ht with
  | idle | fault => exact h
  | notOpened hp | opened hp | wrote hp | stopped hp | restarted hp | notRestarted hp | closing hp
    | configured hp => exact hfree hp rfl
  | skipped | paused | resumed | closed => exact h
  | entered hp c st hst hphase hc =>
    intro c' hc' st' hst' hcommit
    cases hc'
    exact absurd hcommit hc
  | committing hp st st' hst hphase hfilling hwiden =>
    obtain ⟨b, rfl⟩ := Stream.exists_of_widenActive hwiden
    intro c' hc' u hu _
    cases hu
    exact hfilling
  | finished | handedOver | launched => exact of_idle nofun

theorem move (h : p.Provided) (m : Move) (hm : m.isStray = false) : (p.move m).2.Provided := by
  cases m with
  | act a =>
    show (p.step a).2.Provided
    rcases p.step_cases a with ⟨k, c, -, hstep⟩ | ht
    · rw [hstep]
      intro c' hc' st' hst' hcommit
      have hend := p.consumption k c
      cases hst : p.session.stream with
      | none =>
        rw [hend.closed hst] at hst'
        cases hst'
      | some st =>
        obtain ⟨f, hf, htouched⟩ := hend.stream hst
        rw [hf] at hst'
        cases hst'
        show f.handshake.state f.handshake.active = .filling
        rw [htouched.active]
        exact htouched.filling (h c' (hend.producer ▸ hc') st hst hcommit)
    · exact h.transition ht
  | refuse =>
    show p.refuse.2.Provided
    unfold refuse
    split
    next =>
      split
      next => exact of_idle nofun
      next => exact h
    next => exact h
  | stray => cases hm
  | abandon =>
    show p.abandon.Provided
    unfold abandon
    split
    next => exact of_idle nofun
    next => exact h
    next => exact h
  | proceed stalled =>
    show (p.proceed stalled).2.Provided
    unfold proceed
    split
    next =>
      split
      next => exact h
      next => split <;> exact of_idle nofun
    next => exact h

theorem play (h : p.Provided) {ms : List Move} (hms : ∀ m ∈ ms, m.isStray = false) :
    (p.play ms).2.Provided := by
  induction ms generalizing p with
  | nil => exact h
  | cons m ms ih => exact ih (h.move m (hms m (.head _))) fun m hm => hms m (.tail _ hm)

end Provided

/-! ## 5. Every play -/

/-- Of any session over any transport, whatever its calls and its devices do and in whatever order,
and for the stream that is open then:

* a call that the contract allows is under way once it has been entered, and then waits if and only
  if something stands in its way: for `borrow` that the active slot waits or is being read, for
  `commit` that there is another slot and that one waits, for `drain` that any slot waits;
* the same holds at every later moment of the call;
* wherever it waits, the live pulls can be dropped, and once all have been, pulling any number of
  bytes but none, and dropping that pull, lets it be finished;
* with two slots `borrow` waits only for a live pull that claims the active slot;
* before the first hand-over a `commit` does not wait;
* a commit under way has its buffer, unless somebody has given back a slot without a pull. -/
theorem no_deadlock (t : τ) (c : Settings) (ms : List Move) :
    let p := ((new t c).play ms).2
    ∀ st, p.session.stream = some st →
      let h := st.feed.handshake
      (p.producer = .free → (p.session.state = .opened ∨ p.session.state = .playing) →
        ∀ call, h.Provides call →
          let q := (p.step (.command (.enter call))).2
          q.producer = .waiting call ∧ (q.Stuck ↔ h.Hinders call) ∧
            ((∀ stalled, q.Completes call stalled) ↔ ¬ h.Hinders call)) ∧
      (∀ call, p.producer = .waiting call →
        (p.Stuck ↔ h.Hinders call) ∧
        ((∀ stalled, p.Completes call stalled) ↔ ¬ h.Hinders call ∧ h.Provides call) ∧
        (∀ names k, (∀ l ∈ p.live, l.name ∈ names) → (p.play (drops k names)).2.live = []) ∧
        ∀ ds n, (∀ m ∈ ds, m.isDevice = true) → (p.play ds).2.live = [] → n ≠ 0 →
          let q := (p.play (ds ++ [.act (.device st.number (.pull n))])).2
          ¬ q.Stuck ∧ ((∀ m ∈ ds, m.isStray = false) → h.Provides call →
            ∀ stalled, q.Completes call stalled)) ∧
      (h.double = true → h.Hinders .borrow →
        ∃ l ∈ p.live, l.feed = st.number ∧ l.pull.claimed = some h.active) ∧
      (p.session.state = .opened → p.producer.isLaunching = false → ¬ h.Hinders .commit) ∧
      ((∀ m ∈ ms, m.isStray = false) →
        ∀ call, p.producer = .waiting call → h.Provides call) := by
  intro p st hst h
  have hs : Settled ([] ++ ((new t c).play ms).1) p := (settled_new t c).play ms
  have hi : Intact p := (intact_new t c).play (settled_new t c) ms
  have hstate : p.session.state = st.phase.state := by rw [Session.state, hst]
  refine ⟨fun hfree hopen call hprovides => ?_, fun call hwait => ?_, fun hdouble hinders => ?_,
    fun hopened hlaunch hinders => ?_, fun hno call hwait => ?_⟩
  · have hphase : st.phase ≠ .paused := by
      intro hp
      rw [hstate, hp] at hopen
      simp [Phase.state] at hopen
    obtain ⟨hwait, st', hst', hsame⟩ := hi.enter_waits hs hfree hst hphase hprovides
    have hiff := (hi.move hs (.act (.command (.enter call)))).waits_iff
      (hs.move (.act (.command (.enter call)))) hwait hst'
    rw [hsame] at hiff
    exact ⟨hwait, hiff.1, hiff.2.trans (and_iff_left hprovides)⟩
  · obtain ⟨hstuck, hgo⟩ := hi.waits_iff hs hwait hst
    exact ⟨hstuck, hgo, fun names k => hi.live_eq_nil k, fun ds n hds hlive hn =>
      hi.goes_on hs hwait hst hds hlive hn⟩
  · refine hi.readers _ _ (feed?_of_open hst) _ (hinders.resolve_left ?_)
    exact (hs.tidy st hst).active_unready hdouble
  · have hphase : st.phase = .opened := by
      rw [hstate] at hopened
      cases hp : st.phase <;> simp [hp, Phase.state] at hopened ⊢
    exact (hs.unstarted hlaunch st hst hphase).none_ready _ hinders.2
  · have hnew : (new t c).Provided := Provided.of_idle fun call hcall => by cases hcall
    exact hnew.play hno call hwait st hst

/-- A producer that has committed both buffers and asks for the first one again, while a device
still reads it: it waits, and is let go on by the drop and one more pull. -/
theorem no_deadlock_behind_reader :
    let hardware : Hardware := .new (.manual ⟨.linear, 0, true⟩) .none
    let settings : Settings := { Settings.standard with frameCount := 4, fallback := .silence }
    let filling (x : UInt8) : List Move :=
      [.act (.command (.enter .borrow)), .act (.finish false),
        .act (.command (.write [.fill x])), .act (.command (.enter .commit)), .act (.finish false)]
    let script : List Move :=
      .act (.command (.openStream Allocator.machine ⟨.pcm8, .mono, 8000⟩)) :: filling 7 ++
        [.act (.device 0 (.hold 3 "first"))] ++ filling 8 ++ [.act (.command (.enter .borrow))]
    let p := ((new hardware settings).play script).2
    p.producer = .waiting .borrow ∧ p.Stuck ∧
      (p.play (drops 0 ["first"] ++ [.act (.device 0 (.pull 1))])).2.Completes .borrow false := by
  intro hardware settings filling script p
  have hwait : p.producer = .waiting .borrow := by decide +kernel
  have hslots : p.session.stream.map (fun st => (st.number,
      st.feed.handshake.state st.feed.handshake.active)) = some (0, .consumed) := by decide +kernel
  have hlive : ∀ l ∈ p.live, l.name ∈ ["first"] := by decide +kernel
  obtain ⟨st, hst, hactive⟩ := Option.map_eq_some_iff.mp hslots
  obtain ⟨hnumber, hconsumed⟩ := Prod.mk.inj hactive
  have hall := no_deadlock hardware settings script
  obtain ⟨-, hcalls, -⟩ := hall st hst
  obtain ⟨hstuck, -, hdrops, hgo⟩ := hcalls .borrow hwait
  have hdone := (hgo (drops 0 ["first"]) 1 (by simp [drops, Move.isDevice])
    (hdrops ["first"] 0 hlive) (by decide)).2 (by simp [drops, Move.isStray]) nofun false
  rw [hnumber] at hdone
  exact ⟨hwait, hstuck.mpr (.inr hconsumed), hdone⟩

end Playback

end Playout

import Playout.Proofs.Reachable
import Playout.Bench.Hardware

/-!
# Where the slots stand

At most one slot waits for the consumer, at most one is being filled and that is the active one, and
the active one never waits if there are two.  This holds at every moment at which somebody else can
look: between two calls, and while a call waits.  It does not rest on the assumptions of
`Playback.run`: here devices also act between a first hand-over and a start that fails, slots are
given back at the wrong time, and a call goes on or ends there whether or not somebody checks.
-/

namespace Playout

/-! ## 1. The state of a session as its calls announce it -/

/-- The state of a session after an event. -/
def SessionState.after (x : SessionState) : Event → SessionState
  | .opened _ _ _ => .opened
  | .closed => .closed
  | .paused => .paused
  | .resumed .done | .launched _ _ | .answered _ .commit _ .done => .playing
  | _ => x

/-- The state of a session after these events, closed at first. -/
def stateAfter (tr : List Event) : SessionState := tr.foldl .after .closed

theorem stateAfter_append_nil (tr : List Event) : stateAfter (tr ++ []) = stateAfter tr := by
  rw [List.append_nil]

theorem stateAfter_concat (tr : List Event) (x : Event) :
    stateAfter (tr ++ [x]) = (stateAfter tr).after x := by
  rw [stateAfter, List.foldl_append, List.foldl_cons, List.foldl_nil, stateAfter]

namespace Playback

variable {τ : Type} [Transport τ]

/-! ## 2. Moves of anybody -/

/-- What can happen next, whether it is an action or goes wrong. -/
inductive Move where
  | act (a : Action)
  -- The start after a first hand-over, if it fails.
  | refuse
  -- Somebody gives a slot back, whoever reads it.
  | stray (feed : Nat) (s : Slot)
  -- A check fails in a call that waits, which is then over.
  | abandon
  -- Nobody checks, and a commit goes on without a buffer to hand over.
  | proceed (stalled : Bool)

/-- The start after a first hand-over fails, whatever devices have done in between. -/
def refuse (p : Playback τ) : List Event × Playback τ :=
  match p.producer, p.session.stream with
  | .launching stalled, some st =>
    match p.session.startFirst st with
    | (.refused e, s) =>
      ([.answered st.number .commit stalled (.refused e)],
        { p with session := s, producer := .free })
    | _ => ([], p)
  | _, _ => ([], p)

def stray (p : Playback τ) (k : Nat) (s : Slot) : Playback τ :=
  match p.feed? k with
  | none => p
  | some f => p.setFeed k (f.setHandshake (f.handshake.giveBack s))

def abandon (p : Playback τ) : Playback τ :=
  match p.producer with
  | .waiting _ => { p with producer := .free }
  | .free | .launching _ => p

def proceed (p : Playback τ) (stalled : Bool) : List Event × Playback τ :=
  match p.producer, p.session.stream with
  | .waiting .commit, some st =>
    if st.feed.handshake.state st.feed.handshake.active = .filling then ([], p)
    else
      let q := { p with session := p.session.setStream (st.countStall stalled), lent := none }
      match st.phase with
      | .opened => ([], { q with producer := .launching stalled })
      | .playing | .paused =>
        ([.answered st.number .commit stalled .done], { q with producer := .free })
  | _, _ => ([], p)

def move (p : Playback τ) : Move → List Event × Playback τ
  | .act a => p.step a
  | .refuse => p.refuse
  | .stray k s => ([], p.stray k s)
  | .abandon => ([], p.abandon)
  | .proceed stalled => p.proceed stalled

/-- One move after the other, with all the events. -/
def play (p : Playback τ) : List Move → List Event × Playback τ
  | [] => ([], p)
  | m :: rest =>
    ((p.move m).1 ++ ((p.move m).2.play rest).1, ((p.move m).2.play rest).2)

/-- A run is a play in which nothing goes wrong. -/
theorem play_act (p : Playback τ) (as : List Action) : p.play (as.map .act) = p.run as := by
  induction as generalizing p with
  | nil => rfl
  | cons a rest ih => rw [List.map_cons, play, move, ih, run]

omit [Transport τ] in
theorem touched_setFeed {p : Playback τ} {st : Stream} (hst : p.session.stream = some st) {k : Nat}
    {f f' : Feed} (hfeed : p.feed? k = some f) (ht : f.handshake.Touched f'.handshake) :
    ∃ g, (p.setFeed k f').session.stream = some { st with feed := g } ∧
      st.feed.handshake.Touched g.handshake := by
  rw [stream_setFeed, hst, Option.map_some]
  by_cases hk : st.number = k
  · subst hk
    rw [feed?_of_open hst] at hfeed
    cases hfeed
    exact ⟨f', by rw [if_pos rfl], ht⟩
  · exact ⟨st.feed, by rw [if_neg hk], .rest⟩

omit [Transport τ] in
-- Whatever a device does, an open stream stays open and only its handshake moves.
theorem Consumption.stream {p : Playback τ} {k : Nat} {c : ConsumerStep}
    {r : ConsumerReply × Playback τ} (h : p.Consumption k c r) {st : Stream}
    (hst : p.session.stream = some st) :
    ∃ f, r.2.session.stream = some { st with feed := f } ∧
      st.feed.handshake.Touched f.handshake := by
  cases h with
  | nothing => exact ⟨st.feed, hst, .rest⟩
  | pulled n f f' hfeed hdrop =>
    exact touched_setFeed hst hfeed ((f.touched_pull n).trans (Feed.touched_drop hdrop))
  | held n name f hname hfeed => exact touched_setFeed hst hfeed (f.touched_pull n)
  | peeked => exact ⟨st.feed, hst, .rest⟩
  | dropped name l f f' hname hfeed hdrop =>
    exact touched_setFeed hst hfeed (Feed.touched_drop hdrop)
  | faulted => exact ⟨st.feed, hst, .rest⟩

omit [Transport τ] in
theorem Consumption.closed {p : Playback τ} {k : Nat} {c : ConsumerStep}
    {r : ConsumerReply × Playback τ} (h : p.Consumption k c r) (hst : p.session.stream = none) :
    r.2.session.stream = none := by
  have hset : ∀ j f, (p.setFeed j f).session.stream = none := by
    intro j f
    rw [stream_setFeed, hst]
    rfl
  cases h with
  | pulled | held | dropped => exact hset _ _
  | nothing | peeked | faulted => exact hst

omit [Transport τ] in
theorem Consumption.producer {p : Playback τ} {k : Nat} {c : ConsumerStep}
    {r : ConsumerReply × Playback τ} (h : p.Consumption k c r) : r.2.producer = p.producer := by
  cases h with
  | pulled | held | dropped => exact p.producer_setFeed _ _
  | nothing | peeked | faulted => rfl

/-! ## 3. What every such run keeps -/

/-- The state is the announced one, and the slots stand where they belong. -/
structure Settled (tr : List Event) (p : Playback τ) : Prop where
  state : p.session.state = stateAfter tr
  -- A call that is under way has a stream, which is not paused.
  busy : p.producer ≠ .free → ∃ st, p.session.stream = some st ∧ st.phase ≠ .paused
  tidy : ∀ st, p.session.stream = some st → st.feed.handshake.Tidy
  unstarted : p.producer.isLaunching = false → ∀ st, p.session.stream = some st →
    st.phase = .opened → st.feed.handshake.Unstarted

namespace Settled

variable {tr es : List Event} {p p' : Playback τ} {st st' : Stream}

omit [Transport τ]

theorem of_same (hs : Settled tr p) (hstream : p'.session.stream = p.session.stream)
    (hproducer : p'.producer = p.producer) (hes : stateAfter (tr ++ es) = stateAfter tr) :
    Settled (tr ++ es) p' where
  state := by
    rw [hes, ← hs.state, Session.state, hstream, Session.state]
  busy := by
    rw [hproducer, hstream]
    exact hs.busy
  tidy := by
    rw [hstream]
    exact hs.tidy
  unstarted := by
    rw [hproducer, hstream]
    exact hs.unstarted

theorem of_closed (hclosed : p.session.stream = none) (hfree : p.producer = .free)
    (hstate : stateAfter tr = .closed) : Settled tr p where
  state := by rw [hstate, Session.state, hclosed]
  busy hbusy := absurd hfree hbusy
  tidy st hst := by
    rw [hclosed] at hst
    cases hst
  unstarted _ st hst := by
    rw [hclosed] at hst
    cases hst

theorem of_open (hst : p.session.stream = some st) (hstate : stateAfter tr = st.phase.state)
    (hbusy : p.producer = .free ∨ st.phase ≠ .paused) (htidy : st.feed.handshake.Tidy)
    (hunstarted : p.producer.isLaunching = false → st.phase = .opened →
      st.feed.handshake.Unstarted) : Settled tr p where
  state := by rw [hstate, Session.state, hst]
  busy hbusy' := ⟨st, hst, hbusy.resolve_left hbusy'⟩
  tidy st' hst' := by
    rw [hst] at hst'
    cases hst'
    exact htidy
  unstarted hlaunch st' hst' := by
    rw [hst] at hst'
    cases hst'
    exact hunstarted hlaunch

theorem state_of_open (hs : Settled tr p) (hst : p.session.stream = some st) :
    stateAfter tr = st.phase.state := by
  rw [← hs.state, Session.state, hst]

theorem state_of_closed (hs : Settled tr p) (hst : p.session.stream = none) :
    stateAfter tr = .closed := by
  rw [← hs.state, Session.state, hst]

theorem not_paused (hs : Settled tr p) (hbusy : p.producer ≠ .free)
    (hst : p.session.stream = some st) : st.phase ≠ .paused := by
  obtain ⟨st', hst', hphase⟩ := hs.busy hbusy
  rw [hst] at hst'
  cases hst'
  exact hphase

theorem free_of_closed (hs : Settled tr p) (hst : p.session.stream = none) :
    p.producer = .free := by
  refine Decidable.byContradiction fun hbusy => ?_
  obtain ⟨st, hst', -⟩ := hs.busy hbusy
  rw [hst] at hst'
  cases hst'

-- A stream whose handshake only the consumer has touched.
theorem of_touched (hs : Settled tr p) (hst : p.session.stream = some st) {f : Feed}
    (hst' : p'.session.stream = some { st with feed := f })
    (htidy : st.feed.handshake.Tidy → f.handshake.Tidy)
    (hunstarted : st.feed.handshake.Unstarted → f.handshake.Unstarted)
    (hproducer : p'.producer = p.producer) (hes : stateAfter (tr ++ es) = stateAfter tr) :
    Settled (tr ++ es) p' := by
  have hstate := hs.state_of_open hst
  refine of_open hst' (hes.trans hstate) ?_ (htidy (hs.tidy st hst)) ?_
  · rw [hproducer]
    by_cases hfree : p.producer = .free
    · exact .inl hfree
    · have hphase := hs.not_paused hfree hst
      exact .inr hphase
  · rw [hproducer]
    intro hlaunch hphase
    exact hunstarted (hs.unstarted hlaunch st hst hphase)

theorem device (hs : Settled tr p) (k : Nat) (c : ConsumerStep) :
    Settled (tr ++ [.device k c (p.consume k c).1]) (p.consume k c).2 := by
  have hend := p.consumption k c
  have hes := stateAfter_concat tr (.device k c (p.consume k c).1)
  cases hst : p.session.stream with
  | none =>
    refine of_closed (hend.closed hst) ?_ (hes.trans (hs.state_of_closed hst))
    exact hend.producer.trans (hs.free_of_closed hst)
  | some st =>
    obtain ⟨f, hst', htouched⟩ := hend.stream hst
    exact hs.of_touched hst hst' htouched.tidy (fun h => h.touched htouched) hend.producer hes

-- A slot given back at the wrong time is one less that waits or is being filled.
theorem stray (hs : Settled tr p) (k : Nat) (s : Slot) : Settled tr (p.stray k s) := by
  have hnothing := stateAfter_append_nil tr
  rw [← List.append_nil tr]
  unfold Playback.stray
  split
  next => exact hs.of_same rfl rfl hnothing
  next f hfeed =>
    have hproducer := p.producer_setFeed k (f.setHandshake (f.handshake.giveBack s))
    have hstream := p.stream_setFeed k (f.setHandshake (f.handshake.giveBack s))
    cases hst : p.session.stream with
    | none =>
      rw [hst, Option.map_none] at hstream
      exact hs.of_same (hstream.trans hst.symm) hproducer hnothing
    | some st =>
      rw [hst, Option.map_some] at hstream
      split at hstream
      next hk =>
        rw [← hk, feed?_of_open hst] at hfeed
        cases hfeed
        exact hs.of_touched hst hstream (fun h => h.giveBack s) (fun h => h.giveBack s) hproducer
          hnothing
      next => exact hs.of_same (hstream.trans hst.symm) hproducer hnothing

theorem abandon (hs : Settled tr p) : Settled tr p.abandon := by
  unfold Playback.abandon
  split
  next c hwait =>
    refine ⟨hs.state, fun hbusy => absurd rfl hbusy, hs.tidy, fun _ => hs.unstarted ?_⟩
    rw [hwait]
    rfl
  next => exact hs
  next => exact hs

-- Where nothing is handed over the slots stay as they are.
theorem proceed (hs : Settled tr p) (stalled : Bool) :
    Settled (tr ++ (p.proceed stalled).1) (p.proceed stalled).2 := by
  have hnothing := stateAfter_append_nil tr
  unfold Playback.proceed
  split
  next st hwait hst =>
    have hphase := hs.not_paused (by simp [hwait]) hst
    have htidy : (st.countStall stalled).feed.handshake.Tidy := by
      rw [Stream.feed_countStall]
      exact hs.tidy st hst
    have hsame := st.phase_countStall stalled
    split
    next => exact hs.of_same rfl rfl hnothing
    next =>
      cases hp : st.phase with
      | opened =>
        refine of_open rfl ?_ (.inr ?_) htidy nofun
        · rw [hnothing, hsame]
          exact hs.state_of_open hst
        · rwa [hsame]
      | playing =>
        refine of_open rfl ?_ (.inl rfl) htidy fun _ hopened => ?_
        · rw [stateAfter_concat, hsame, hp]
          rfl
        · rw [hsame, hp] at hopened
          cases hopened
      | paused => exact absurd hp hphase
  next => exact hs.of_same rfl rfl hnothing

variable [Transport τ]

-- A refused start leaves a fresh handshake.
theorem refuse (hs : Settled tr p) : Settled (tr ++ p.refuse.1) p.refuse.2 := by
  have hnothing := stateAfter_append_nil tr
  unfold Playback.refuse
  split
  next stalled st hlaunch hst =>
    unfold Session.startFirst
    rcases hstart : Transport.start p.session.transport st.handle st.format.frameRate
      st.format.layout.isStereo with ⟨e | u, t⟩
    · have hstate := hs.state_of_open hst
      have hes := stateAfter_concat tr (.answered st.number .commit stalled (.refused e))
      exact of_open rfl (hes.trans hstate) (.inl rfl) (.initial _) fun _ _ => .initial _
    · exact hs.of_same rfl rfl hnothing
  next => exact hs.of_same rfl rfl hnothing

theorem finished (hs : Settled tr p) {c : Call} (hwait : p.producer = .waiting c)
    (hst : p.session.stream = some st) {stalled : Bool} {a : Answer} {s : Session τ}
    (h : p.session.Finishing st stalled c (.ok (some (a, s)))) :
    Settled (tr ++ [.answered st.number c stalled a])
      { p with session := s, producer := .free, lent := p.lentAfter st c } := by
  have htidy := hs.tidy st hst
  have hstate := hs.state_of_open hst
  have hes := stateAfter_concat tr (.answered st.number c stalled a)
  have hlaunch : p.producer.isLaunching = false := by rw [hwait]; rfl
  cases h with
  | borrow hfillable hsize =>
    refine of_open rfl (hes.trans ?_) (.inl rfl) ?_ ?_
    · rw [Stream.phase_borrowed]
      exact hstate
    · rw [Stream.feed_borrowed]
      exact htidy.setFilling
    · intro _ hphase
      rw [Stream.phase_borrowed] at hphase
      rw [Stream.feed_borrowed]
      exact (hs.unstarted hlaunch st hst hphase).setFilling
  | commit hblocks hfilling hphase =>
    -- neither opened nor paused
    have hplaying : st.phase = .playing := by
      have hpaused := hs.not_paused (by simp [hwait]) hst
      cases hp : st.phase with
      | opened => exact absurd hp hphase
      | playing => rfl
      | paused => exact absurd hp hpaused
    refine of_open rfl (hes.trans ?_) (.inl rfl) ?_ ?_
    · rw [Stream.phase_handedOver, hplaying]
      rfl
    · rw [Stream.feed_handedOver]
      exact htidy.handed hblocks
    · intro _ hopened
      rw [Stream.phase_handedOver] at hopened
      exact absurd hopened hphase
  | start hblocks hfilling hphase t hstart =>
    refine of_open rfl hes (.inl rfl) ?_ nofun
    show (st.handedOver stalled).feed.handshake.Tidy
    rw [Stream.feed_handedOver]
    exact htidy.handed hblocks
  | refuse hblocks hfilling hphase e t hstart =>
    refine of_open rfl (hes.trans ?_) (.inl rfl) (.initial _) fun _ _ => .initial _
    show stateAfter tr = (st.handedOver stalled).phase.state
    rw [Stream.phase_handedOver]
    exact hstate
  | drain hblocks =>
    refine of_open rfl (hes.trans ?_) (.inl rfl) ?_ ?_
    · rw [Stream.phase_countStall]
      exact hstate
    · rw [Stream.feed_countStall]
      exact htidy
    · intro _ hphase
      rw [Stream.phase_countStall] at hphase
      rw [Stream.feed_countStall]
      exact hs.unstarted hlaunch st hst hphase

omit [Transport τ] in
-- A stream in another phase, with a free producer.
theorem of_phase (hs : Settled tr p) (hfree : p'.producer = .free)
    (hst : p.session.stream = some st) (phase : Phase) (hphase : phase ≠ .opened)
    (hst' : p'.session.stream = some { st with phase })
    (hes : stateAfter (tr ++ es) = phase.state) : Settled (tr ++ es) p' :=
  of_open hst' hes (.inl hfree) (hs.tidy st hst) fun _ hopened => absurd hopened hphase

theorem transition (hs : Settled tr p) (h : p.Transition es p') : Settled (tr ++ es) p' := by
  cases h with
  | idle => exact hs.of_same rfl rfl (stateAfter_append_nil tr)
  | fault f => exact hs.of_same rfl rfl (stateAfter_concat tr _)
  | notOpened hfree hclosed mem requested e s hend =>
    refine of_closed ?_ hfree ((stateAfter_concat tr _).trans (hs.state_of_closed hclosed))
    cases hend <;> exact hclosed
  | opened hfree hclosed mem requested f s hend =>
    cases hend with
    | installed f b handle t t' threshold _ hallocate _ _ _ =>
      obtain ⟨bytes, -, -, rfl⟩ := Session.allocateFor_eq_ok hallocate
      exact of_open rfl (stateAfter_concat tr _) (.inl hfree) (.initial _) fun _ _ => .initial _
  | skipped hfree c st hst hphase => exact hs.of_same rfl rfl (stateAfter_concat tr _)
  | entered hfree c st hst hphase hc =>
    rw [List.append_nil]
    refine of_open hst (hs.state_of_open hst) (.inr hphase) (hs.tidy st hst) fun _ hopened => ?_
    exact hs.unstarted (by rw [hfree]; rfl) st hst hopened
  | committing hfree st st' hst hphase hfilling hwiden =>
    obtain ⟨b, rfl⟩ := Stream.exists_of_widenActive hwiden
    have hstate := hs.state_of_open hst
    rw [List.append_nil]
    refine of_open rfl hstate (.inr hphase) (hs.tidy st hst) fun _ hopened => ?_
    exact hs.unstarted (by rw [hfree]; rfl) st hst hopened
  | wrote hfree edits st slot hst hlent =>
    have hstate := hs.state_of_open hst
    have hes := stateAfter_concat tr (.wrote st.number edits)
    refine of_open rfl (hes.trans hstate) (.inl hfree) (hs.tidy st hst) fun _ hopened => ?_
    exact hs.unstarted (by rw [hfree]; rfl) st hst hopened
  | paused hfree st hst hphase =>
    refine hs.of_phase hfree hst .paused nofun ?_ (stateAfter_concat tr _)
    rw [hst, ← hphase]
  | stopped hfree st hst hphase =>
    exact hs.of_phase hfree hst .paused nofun rfl (stateAfter_concat tr _)
  | resumed hfree st hst hphase =>
    refine hs.of_phase hfree hst .playing nofun ?_ (stateAfter_concat tr _)
    rw [hst, ← hphase]
  | restarted hfree st hst hphase t hstart =>
    exact hs.of_phase hfree hst .playing nofun rfl (stateAfter_concat tr _)
  | notRestarted hfree st hst hphase e t hstart =>
    exact hs.of_same rfl rfl (stateAfter_concat tr _)
  | closed hfree hclosed => exact of_closed hclosed hfree (stateAfter_concat tr _)
  | closing hfree st hst => exact of_closed rfl hfree (stateAfter_concat tr _)
  | configured hfree c => exact hs.of_same rfl rfl (stateAfter_append_nil tr)
  | finished c hwait st hst stalled a s hend => exact hs.finished hwait hst hend
  | handedOver hwait st hst hphase hblocks hfilling stalled =>
    refine of_open rfl ?_ (.inr ?_) ?_ nofun
    · rw [stateAfter_concat, Stream.phase_handedOver]
      exact hs.state_of_open hst
    · rw [Stream.phase_handedOver, hphase]
      decide
    · rw [Stream.feed_handedOver]
      exact (hs.tidy st hst).handed hblocks
  | launched stalled hlaunch st hst t hstart =>
    exact hs.of_phase rfl hst .playing nofun rfl (stateAfter_concat tr _)

theorem step (hs : Settled tr p) (a : Action) : Settled (tr ++ (p.step a).1) (p.step a).2 := by
  rcases p.step_cases a with ⟨k, c, -, hstep⟩ | htrans
  · rw [hstep]
    exact hs.device k c
  · exact hs.transition htrans

theorem move (hs : Settled tr p) (m : Move) : Settled (tr ++ (p.move m).1) (p.move m).2 := by
  cases m with
  | act a => exact hs.step a
  | refuse => exact hs.refuse
  | stray k s =>
    show Settled (tr ++ []) (p.stray k s)
    rw [List.append_nil]
    exact hs.stray k s
  | abandon =>
    show Settled (tr ++ []) p.abandon
    rw [List.append_nil]
    exact hs.abandon
  | proceed stalled => exact hs.proceed stalled

theorem play (hs : Settled tr p) (ms : List Move) :
    Settled (tr ++ (p.play ms).1) (p.play ms).2 := by
  induction ms generalizing tr p with
  | nil =>
    show Settled (tr ++ []) p
    rwa [List.append_nil]
  | cons m rest ih =>
    have hrest := ih (hs.move m)
    rwa [List.append_assoc] at hrest

end Settled

omit [Transport τ] in
theorem settled_new (t : τ) (c : Settings) : Settled [] (new t c) := .of_closed rfl rfl rfl

/-! ## 4. Occupancy -/

/-- At every moment of a session, whatever its calls, its transport and its devices do and in
whatever order, also while a call waits:

* its state is the one that its calls have announced, and it has a stream exactly if that is not
  closed;
* at most one slot waits, at most one is being filled and that is the active one;
* with two slots the active one does not wait, so no producer that asks for it is stopped by its own
  audio;
* with one slot that one stays active, and the second stays empty;
* before anything has been handed over the first slot is active, none waits, and the second is
  empty.  Between the first hand-over and the start of the transport the state is already due to
  change, and this is left out. -/
theorem occupancy (t : τ) (c : Settings) (ms : List Move) :
    let tr := ((new t c).play ms).1
    let p := ((new t c).play ms).2
    p.session.state = stateAfter tr ∧
    (p.session.stream.isSome = true ↔ stateAfter tr ≠ .closed) ∧
    ∀ st, p.session.stream = some st →
      let h := st.feed.handshake
      (∀ s s', h.state s = .ready → h.state s' = .ready → s = s') ∧
      (∀ s, h.state s = .filling → s = h.active) ∧
      (h.double = true → h.state h.active ≠ .ready ∧ h.startFilling ≠ .error .ready) ∧
      (h.double = false → h.active = .a ∧ h.state .b = .empty) ∧
      (p.session.state = .opened → p.producer.isLaunching = false →
        h.active = .a ∧ (∀ s, h.state s ≠ .ready) ∧ h.state .b = .empty) := by
  intro tr p
  have hs : Settled tr p := (settled_new t c).play ms
  refine ⟨hs.state, ?_, fun st hst => ?_⟩
  · cases hst : p.session.stream with
    | none => simp [hs.state_of_closed hst]
    | some st =>
      rw [hs.state_of_open hst]
      cases st.phase <;> simp [Phase.state]
  · have htidy := hs.tidy st hst
    refine ⟨fun s s' => htidy.ready_unique, htidy.filling_active, fun hd => ?_, fun hd => ?_,
      fun hopened hlaunch => ?_⟩
    · have hready := htidy.active_unready hd
      exact ⟨hready, Handshake.startFilling_ne_ready hready⟩
    · exact ⟨htidy.single_active hd, htidy.single_other hd⟩
    · have hphase : st.phase = .opened := by
        rw [Session.state, hst] at hopened
        cases hp : st.phase with
        | opened => rfl
        | playing => simp [hp, Phase.state] at hopened
        | paused => simp [hp, Phase.state] at hopened
      have hunstarted := hs.unstarted hlaunch st hst hphase
      exact ⟨hunstarted.active, hunstarted.none_ready, hunstarted.second⟩

/-- A device that pulls in the middle of a first commit whose start fails, and gives the slot back
after it has been cleared and is being filled again. -/
theorem occupancy_after_refusal :
    let device : Hardware.Manual := ⟨.linear, 0, true⟩
    let hardware : Hardware := .new (.manual device) ⟨none, none, some .unavailable⟩
    let borrowing : List Move := [.act (.command (.enter .borrow)), .act (.finish false)]
    let p := ((new hardware { Settings.standard with frameCount := 4 }).play
      (.act (.command (.openStream Allocator.machine ⟨.pcm8, .mono, 8000⟩)) :: borrowing ++
        [.act (.command (.enter .commit)), .act (.handOver false),
          .act (.device 0 (.hold 3 "kept")), .refuse] ++ borrowing ++ [.stray 0 .a])).2
    p.session.state = .opened ∧ ∃ st, p.session.stream = some st ∧
      st.feed.handshake.active = .a ∧ ∀ s, st.feed.handshake.state s ≠ .ready := by
  intro device hardware borrowing p
  have hall := occupancy hardware { Settings.standard with frameCount := 4 }
    (.act (.command (.openStream Allocator.machine ⟨.pcm8, .mono, 8000⟩)) :: borrowing ++
      [.act (.command (.enter .commit)), .act (.handOver false),
        .act (.device 0 (.hold 3 "kept")), .refuse] ++ borrowing ++ [.stray 0 .a])
  have hstate : p.session.state = .opened := by decide +kernel
  have hlaunch : p.producer.isLaunching = false := by decide +kernel
  obtain ⟨hannounced, hopen, hslots⟩ := hall
  obtain ⟨st, hst⟩ : ∃ st, p.session.stream = some st := by
    refine Option.isSome_iff_exists.mp (hopen.mpr ?_)
    rw [← hannounced, show _ = _ from hstate]
    decide
  obtain ⟨hactive, hready, -⟩ := (hslots st hst).2.2.2.2 hstate hlaunch
  exact ⟨hstate, st, hst, hactive, hready⟩

end Playback

end Playout

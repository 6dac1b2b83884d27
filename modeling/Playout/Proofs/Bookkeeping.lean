import Playout.Proofs.Books

/-!
# Bookkeeping

What each action does to the counters of a session is what its entries say.  Most actions change
nothing that counts; a device moves the counters of one feed, and a call counts a stall when it has
waited for the last time.
-/

namespace Playout

/-! ## 1. What a change is to the books -/

/-- An entry that tells of nothing that is counted, and that no epoch turns on. -/
structure Entry.Quiet (e : Entry) : Prop where
  turns : e.turns = false
  pulled : ∀ k, e.pulled? k = none
  stall : ∀ k limit, e.isStall k limit = false

/-- Whether an event is something else than a step of a device, an opening or a close. -/
def Event.isQuiet : Event → Bool
  | .device _ _ _ | .opened _ _ _ | .closed => false
  | _ => true

namespace Entry.Quiet

variable {e : Entry} {es : List Entry}

theorem of_event {e : Event} (h : e.isQuiet = true) (limit : Nat) :
    (Entry.event e limit).Quiet := by
  cases e with
  | device | opened | closed => cases h
  | _ => exact ⟨rfl, fun _ => rfl, fun _ _ => rfl⟩

theorem of_events {evs : List Event} (h : ∀ e ∈ evs, e.isQuiet = true) (limit : Nat) :
    ∀ x ∈ evs.map (Entry.event · limit), x.Quiet := by
  intro x hx
  obtain ⟨e, he, rfl⟩ := List.mem_map.mp hx
  exact .of_event (h e he) limit

theorem add (h : e.Quiet) (k limit : Nat) (r : Reading) : r.add k limit e = r := by
  simp [Reading.add, h.pulled, h.stall]

theorem foldl (h : ∀ e ∈ es, e.Quiet) (k limit : Nat) (r : Reading) :
    es.foldl (.add k limit) r = r := by
  induction es with
  | nil => rfl
  | cons e es ih =>
    rw [List.foldl_cons, (h e List.mem_cons_self).add]
    exact ih fun e he => h e (List.mem_cons_of_mem _ he)

end Entry.Quiet

namespace Stream

/-- The same stream, whatever its counters say. -/
structure Continues (st st' : Stream) : Prop where
  number : st'.number = st.number
  threshold : st'.stallThreshold = st.stallThreshold
  room : st'.feed.bufferBytes = st.feed.bufferBytes

theorem Continues.refl (st : Stream) : st.Continues st := ⟨rfl, rfl, rfl⟩

theorem continues_countStall (st : Stream) (stalled : Bool) :
    st.Continues (st.countStall stalled) := by
  cases stalled <;> exact ⟨rfl, rfl, rfl⟩

theorem continues_borrowed (st : Stream) (stalled : Bool) : st.Continues (st.borrowed stalled) := by
  cases stalled <;> exact ⟨rfl, rfl, rfl⟩

theorem continues_handedOver (st : Stream) (stalled : Bool) :
    st.Continues (st.handedOver stalled) := by
  cases stalled <;> exact ⟨rfl, rfl, rfl⟩

theorem reading_borrowed (st : Stream) (stalled : Bool) :
    (st.borrowed stalled).reading = (st.countStall stalled).reading := by
  cases stalled <;> rfl

theorem reading_handedOver (st : Stream) (stalled : Bool) :
    (st.handedOver stalled).reading = (st.countStall stalled).reading := by
  cases stalled <;> rfl

theorem reading_countStall (st : Stream) (stalled : Bool) :
    (st.countStall stalled).reading =
      { st.reading with stalls := st.reading.stalls + if stalled then 1 else 0 } := by
  cases stalled with
  | false => simp [countStall, reading, Feed.reading, Counters.reading]
  | true => rfl

end Stream

namespace Playback

variable {τ : Type} {p q : Playback τ} {es : List Entry}

/-- The session's own books. -/
def books (p : Playback τ) : Books where
  current := p.session.stream.map fun st => (st.number, st.stallThreshold.nanos)
  reading := p.session.reading

/-- The buffers of the open stream are not empty. -/
def Roomy (p : Playback τ) : Prop :=
  ∀ st, p.session.stream = some st → st.feed.bufferBytes ≠ 0

/-- An action that neither opens nor closes, and counts what its entries say. -/
inductive Keeping (p : Playback τ) : List Entry → Playback τ → Prop where
  | closed {es : List Entry} {q : Playback τ} (hturns : ∀ e ∈ es, e.turns = false)
      (hp : p.session.stream = none) (hq : q.session.stream = none)
      (hlast : q.session.last = p.session.last) : Keeping p es q
  | running {es : List Entry} {q : Playback τ} (hturns : ∀ e ∈ es, e.turns = false)
      (st st' : Stream) (hp : p.session.stream = some st) (hq : q.session.stream = some st')
      (hcontinues : st.Continues st')
      (hreading : st'.reading = es.foldl (.add st.number st.stallThreshold.nanos) st.reading) :
      Keeping p es q

namespace Keeping

theorem of_same (hes : ∀ e ∈ es, e.Quiet) (hstream : q.session.stream = p.session.stream)
    (hlast : q.session.last = p.session.last) : p.Keeping es q := by
  have hturns : ∀ e ∈ es, e.turns = false := fun e he => (hes e he).turns
  cases hst : p.session.stream with
  | none => exact .closed hturns hst (hstream.trans hst) hlast
  | some st =>
    exact .running hturns st st hst (hstream.trans hst) (.refl st)
      (Entry.Quiet.foldl hes _ _ _).symm

theorem of_stream (hes : ∀ e ∈ es, e.Quiet) {st st' : Stream}
    (hp : p.session.stream = some st) (hq : q.session.stream = some st')
    (hcontinues : st.Continues st') (hreading : st'.reading = st.reading) : p.Keeping es q :=
  .running (fun e he => (hes e he).turns) st st' hp hq hcontinues
    (hreading.trans (Entry.Quiet.foldl hes _ _ _).symm)

theorem threshold (h : p.Keeping es q) : q.threshold = p.threshold := by
  cases h with
  | closed hturns hp hq hlast => rw [Playback.threshold, hq, Playback.threshold, hp]
  | running hturns st st' hp hq hcontinues hreading =>
    rw [Playback.threshold, hq, Playback.threshold, hp]
    exact congrArg Duration.nanos hcontinues.threshold

theorem books (h : p.Keeping es q) : es.foldl Books.note p.books = q.books := by
  cases h with
  | closed hturns hp hq hlast =>
    have hnone : p.books.current = none := by rw [Playback.books, hp]; rfl
    rw [Books.foldl_of_closed hturns hnone]
    simp only [Playback.books, Session.reading, hp, hq, hlast]
  | running hturns st st' hp hq hcontinues hreading =>
    have hsome : p.books.current = some (st.number, st.stallThreshold.nanos) := by
      rw [Playback.books, hp]
      rfl
    rw [Books.foldl_of_open hturns hsome]
    simp only [Playback.books, Session.reading, hp, hq, Option.map_some, hreading,
      hcontinues.number, hcontinues.threshold]

theorem roomy (h : p.Keeping es q) (hp : p.Roomy) : q.Roomy := by
  intro u hu
  cases h with
  | closed hturns hclosed hq hlast =>
    rw [hq] at hu
    cases hu
  | running hturns st st' hst hq hcontinues hreading =>
    rw [hq] at hu
    cases hu
    rw [hcontinues.room]
    exact hp st hst

end Keeping

/-- An action that can also open or close. -/
inductive Booking (p : Playback τ) : List Entry → Playback τ → Prop where
  | kept {es : List Entry} {q : Playback τ} (h : p.Keeping es q) : Booking p es q
  -- A stream has been opened, and starts at zero.
  | opened {q : Playback τ} (f : Format) (widens : Bool) (st : Stream)
      (hq : q.session.stream = some st) (hzero : st.reading = .zero)
      (hroom : st.feed.bufferBytes ≠ 0) :
      Booking p [.event (.opened st.number f widens) st.stallThreshold.nanos] q
  -- The session is closed, and keeps its counters.
  | closed {q : Playback τ} (limit : Nat) (hq : q.session.stream = none)
      (hlast : q.session.last = p.session.reading) : Booking p [.event .closed limit] q

namespace Booking

theorem books (h : p.Booking es q) : es.foldl Books.note p.books = q.books := by
  cases h with
  | kept h => exact h.books
  | opened f widens st hq hzero hroom =>
    rw [List.foldl_cons, List.foldl_nil, Books.note]
    simp only [Playback.books, Session.reading, hq, Option.map_some, hzero]
  | closed limit hq hlast =>
    rw [List.foldl_cons, List.foldl_nil, Books.note]
    simp only [Playback.books, Session.reading, hq, Option.map_none, hlast]

theorem roomy (h : p.Booking es q) (hp : p.Roomy) : q.Roomy := by
  cases h with
  | kept h => exact h.roomy hp
  | opened f widens st hq hzero hroom =>
    intro u hu
    rw [hq] at hu
    cases hu
    exact hroom
  | closed limit hq hlast =>
    intro u hu
    rw [hq] at hu
    cases hu

end Booking

end Playback

/-! ## 2. Devices -/

theorem Entry.pulled?_of_ne {j k : Nat} (h : j ≠ k) (c : ConsumerStep) (r : ConsumerReply)
    (limit : Nat) : (Entry.event (.device j c r) limit).pulled? k = none := by
  unfold Entry.pulled?
  split
  next heq =>
    cases heq
    split
    next => exact if_neg fun hk => h hk.1
    next => rfl
  next => rfl

namespace Feed

variable {f f' : Feed}

theorem counters_drop {x : Pull} (h : f.drop x = .ok f') : f'.counters = f.counters := by
  obtain ⟨-, rfl⟩ | ⟨s, -, -, rfl⟩ := drop_eq_ok h <;> rfl

-- What a pull counts is what its reply says.
theorem reading_pull (hroom : f.bufferBytes ≠ 0) {c : ConsumerStep} {n : Nat}
    (hc : c.asks = some n) (k nanos limit : Nat) (stalls : UInt64) :
    (f.pull n).2.reading stalls = (f.reading stalls).add k nanos
      (.event (.device k c ((f.pull n).2.view (f.pull n).1)) limit) := by
  have hpulled : ∀ x : Pull, (Entry.event (.device k c ((f.pull n).2.view x)) limit).pulled? k =
      if n ≠ 0 then some x.delivered else none := by
    intro x
    simp [Entry.pulled?, Feed.view, hc]
  have hend := f.pulled n
  rw [Reading.add, hpulled]
  generalize f.pull n = r at hend
  cases hend with
  | nothing hgrant =>
    -- the buffers are not empty, so nothing was asked for
    have hn : n = 0 := by
      rw [grant] at hgrant
      omega
    simp [hn, Entry.isStall]
  | delivered s hgrant hmem hready =>
    have hn : n ≠ 0 := by
      rintro rfl
      exact hgrant (Nat.zero_min _)
    simp [hn, hgrant, Entry.isStall, Feed.reading, Counters.reading, Counters.addDelivery]
  | replayed hgrant hnone hfallback hempty | silent hgrant hnone hreplay =>
    have hn : n ≠ 0 := by
      rintro rfl
      exact hgrant (Nat.zero_min _)
    simp [hn, Entry.isStall, Feed.reading, Counters.reading, Counters.addUnderrun, Pull.silence]

end Feed

namespace Playback

variable {τ : Type} {p q : Playback τ} {es : List Entry}

-- Only the counters of one feed move, and an entry that is not quiet tells of that feed.
theorem Keeping.of_feed (hp : p.Roomy) (hturns : ∀ e ∈ es, e.turns = false) {k : Nat} {f f' : Feed}
    (hfeed : p.feed? k = some f) (hsame : f.SameBytes f')
    (hstream : q.session.stream = (p.setFeed k f').session.stream)
    (hlast : q.session.last = p.session.last)
    (hown : f.bufferBytes ≠ 0 → ∀ limit stalls,
      f'.reading stalls = es.foldl (.add k limit) (f.reading stalls))
    (hother : ∀ j, j ≠ k → ∀ limit (r : Reading), es.foldl (.add j limit) r = r) :
    p.Keeping es q := by
  rw [stream_setFeed] at hstream
  cases hst : p.session.stream with
  | none =>
    rw [hst] at hstream
    exact .closed hturns hst hstream hlast
  | some st =>
    rw [hst, Option.map_some] at hstream
    by_cases hk : st.number = k
    · subst hk
      rw [feed?_of_open hst] at hfeed
      cases hfeed
      rw [if_pos rfl] at hstream
      exact .running hturns st _ hst hstream ⟨rfl, rfl, hsame.bufferBytes⟩ (hown (hp st hst) _ _)
    · rw [if_neg hk] at hstream
      exact .running hturns st st hst hstream (.refl st) (hother _ hk _ _).symm

-- A pull, whether it is kept or not.
theorem Keeping.of_pull (hp : p.Roomy) {k n : Nat} {c : ConsumerStep} (hc : c.asks = some n)
    {f f' : Feed} (hfeed : p.feed? k = some f) (hsame : f.SameBytes f')
    (hcounters : f'.counters = (f.pull n).2.counters)
    (hstream : q.session.stream = (p.setFeed k f').session.stream)
    (hlast : q.session.last = p.session.last) (limit : Nat) :
    p.Keeping [.event (.device k c ((f.pull n).2.view (f.pull n).1)) limit] q := by
  refine .of_feed hp ?_ hfeed hsame hstream hlast (fun hroom nanos stalls => ?_)
    fun j hj nanos r => ?_
  · intro e he
    rw [List.mem_singleton.mp he]
    rfl
  · rw [Feed.reading, hcounters]
    exact Feed.reading_pull hroom hc k nanos limit stalls
  · rw [List.foldl_cons, List.foldl_nil]
    simp [Reading.add, Entry.pulled?_of_ne (Ne.symm hj), Entry.isStall]

-- A slot that is given back.
theorem Keeping.of_release (hp : p.Roomy) (hes : ∀ e ∈ es, e.Quiet) {k : Nat} {f f' : Feed}
    (hfeed : p.feed? k = some f) (hsame : f.SameBytes f') (hcounters : f'.counters = f.counters)
    (hstream : q.session.stream = (p.setFeed k f').session.stream)
    (hlast : q.session.last = p.session.last) : p.Keeping es q := by
  refine .of_feed hp (fun e he => (hes e he).turns) hfeed hsame hstream hlast
    (fun _ nanos stalls => ?_) fun j _ nanos r => Entry.Quiet.foldl hes j nanos r
  rw [Entry.Quiet.foldl hes, Feed.reading, hcounters]
  rfl

theorem keeping_device (hp : p.Roomy) (k : Nat) (c : ConsumerStep) (limit : Nat) :
    p.Keeping [.event (.device k c (p.consume k c).1) limit] (p.consume k c).2 := by
  have hend := p.consumption k c
  have hquiet : ∀ {r : ConsumerReply}, (c.asks = none ∨ ∀ data n b, r ≠ .audio data n b) →
      ∀ e ∈ [Entry.event (.device k c r) limit], e.Quiet := by
    intro r hr e he
    rw [List.mem_singleton.mp he]
    refine ⟨rfl, fun j => ?_, fun _ _ => rfl⟩
    unfold Entry.pulled?
    split
    next heq =>
      cases heq
      rw [hr.resolve_right fun h => h _ _ _ rfl]
    next => rfl
  generalize p.consume k c = r at hend
  cases hend with
  | nothing c => exact .of_same (hquiet (.inr nofun)) rfl rfl
  | pulled n f f' hfeed hdrop =>
    have hsame := (f.sameBytes_pull n).trans (Feed.sameBytes_drop hdrop)
    exact .of_pull hp rfl hfeed hsame (Feed.counters_drop hdrop) rfl (p.last_setFeed k f') limit
  | held n name f hname hfeed =>
    refine .of_pull hp rfl hfeed (f.sameBytes_pull n) rfl ?_ ?_ limit
    · rfl
    · exact p.last_setFeed k (f.pull n).2
  | peeked name l f hname hfeed => exact .of_same (hquiet (.inl rfl)) rfl rfl
  | dropped name l f f' hname hfeed hdrop =>
    refine .of_release hp (hquiet (.inl rfl)) hfeed (Feed.sameBytes_drop hdrop)
      (Feed.counters_drop hdrop) ?_ ?_
    · rfl
    · exact p.last_setFeed l.feed f'
  | faulted name l f d hname hfeed hdrop => exact .of_same (hquiet (.inl rfl)) rfl rfl

theorem keeping_stray (hp : p.Roomy) (k : Nat) (s : Slot) : p.Keeping [] (p.stray k s) := by
  unfold stray
  split
  next => exact .of_same (List.forall_mem_nil _) rfl rfl
  next f hfeed =>
    have hsame : f.SameBytes (f.setHandshake (f.handshake.giveBack s)) := ⟨rfl, rfl, rfl, rfl⟩
    exact .of_release hp (List.forall_mem_nil _) hfeed hsame rfl rfl (p.last_setFeed k _)

/-! ## 3. Calls -/

variable [Transport τ]

-- Of the commands only an opening and a close turn the books over.
theorem booking_of_transition (hfree : p.producer = .free) {evs : List Event}
    (h : p.Transition evs q) : p.Booking (evs.map (.event · q.threshold)) q := by
  have hquiet := fun (hevs : ∀ e ∈ evs, e.isQuiet = true) =>
    Entry.Quiet.of_events hevs q.threshold
  have hone : ∀ {e : Event}, e.isQuiet = true → ∀ x ∈ [e], x.isQuiet = true :=
    fun he => List.forall_mem_singleton.mpr he
  cases h with
  | idle | entered | configured => exact .kept (.of_same (hquiet (List.forall_mem_nil _)) rfl rfl)
  | fault | skipped | paused | resumed | notRestarted =>
    exact .kept (.of_same (hquiet (hone rfl)) rfl rfl)
  | notOpened hfree hclosed mem requested e s hend =>
    refine .kept (.of_same (hquiet (hone rfl)) ?_ ?_) <;> cases hend <;> rfl
  | opened hfree hclosed mem requested f s hend =>
    cases hend with
    | installed f b handle t t' threshold _ hallocate _ _ _ =>
      obtain ⟨bytes, -, hpos, rfl⟩ := Session.allocateFor_eq_ok hallocate
      refine .opened f _ ⟨p.session.opens, handle, _, _, threshold, 0, .opened⟩ rfl rfl ?_
      show (Bytes.zeros bytes).size ≠ 0
      rwa [Bytes.size_zeros]
  | committing hfree st st' hst hphase hfilling hwiden =>
    obtain ⟨b, rfl⟩ := Stream.exists_of_widenActive hwiden
    exact .kept (.of_stream (hquiet (List.forall_mem_nil _)) hst rfl ⟨rfl, rfl, rfl⟩ rfl)
  | wrote hfree edits st slot hst hlent =>
    exact .kept (.of_stream (hquiet (hone rfl)) hst rfl ⟨rfl, rfl, rfl⟩ rfl)
  | stopped hfree st hst hphase | restarted hfree st hst hphase t hstart =>
    exact .kept (.of_stream (hquiet (hone rfl)) hst rfl ⟨rfl, rfl, rfl⟩ rfl)
  | closed hfree hclosed =>
    refine .closed _ hclosed ?_
    rw [Session.reading, hclosed]
  | closing hfree st hst =>
    refine .closed _ rfl ?_
    rw [Session.reading, hst]
  | finished c hwait => rw [hfree] at hwait; cases hwait
  | handedOver hwait => rw [hfree] at hwait; cases hwait
  | launched stalled hlaunch => rw [hfree] at hlaunch; cases hlaunch

/-- How a call goes on. -/
inductive GoingOn (p : Playback τ) (stalled : Bool) : List Event × Playback τ → Prop where
  -- It does not.
  | stuck {evs : List Event} (hevs : ∀ e ∈ evs, e.isQuiet = true) : GoingOn p stalled (evs, p)
  -- It has waited for the last time, and counts its stall.
  | ended {evs : List Event} {q : Playback τ} (hevs : ∀ e ∈ evs, e.isQuiet = true) (c : Call)
      (hwait : p.producer = .waiting c) (st st' : Stream) (hst : p.session.stream = some st)
      (hq : q.session.stream = some st') (hcontinues : st.Continues st')
      (hreading : st'.reading = (st.countStall stalled).reading) (hover : q.pending? = none) :
      GoingOn p stalled (evs, q)
  -- It does, and had waited for the last time before.
  | started {evs : List Event} {q : Playback τ} (hevs : ∀ e ∈ evs, e.isQuiet = true)
      (hover : p.pending? = none) (st st' : Stream) (hst : p.session.stream = some st)
      (hq : q.session.stream = some st') (hcontinues : st.Continues st')
      (hreading : st'.reading = st.reading) : GoingOn p stalled (evs, q)

theorem goingOn_finish (stalled : Bool) : p.GoingOn stalled (p.finish stalled) := by
  unfold finish
  split
  next c st hwait hst =>
    have hend := Session.finishing hst c stalled
    split
    next f hf => exact .stuck (List.forall_mem_singleton.mpr rfl)
    next => exact .stuck (List.forall_mem_nil _)
    next a s hs =>
      rw [hs] at hend
      have hquiet : ∀ e ∈ [Event.answered st.number c stalled a], e.isQuiet = true :=
        List.forall_mem_singleton.mpr rfl
      -- what else a call does to its stream neither replaces it nor counts
      cases hend with
      | borrow hfillable hsize =>
        exact .ended hquiet .borrow hwait st _ hst rfl (st.continues_borrowed stalled)
          (st.reading_borrowed stalled) rfl
      | commit hblocks hfilling hphase =>
        exact .ended hquiet .commit hwait st _ hst rfl (st.continues_handedOver stalled)
          (st.reading_handedOver stalled) rfl
      | start hblocks hfilling hphase t hstart =>
        have hcontinues := st.continues_handedOver stalled
        exact .ended hquiet .commit hwait st _ hst rfl
          ⟨hcontinues.number, hcontinues.threshold, hcontinues.room⟩
          (st.reading_handedOver stalled) rfl
      | refuse hblocks hfilling hphase e t hstart =>
        have hcontinues := st.continues_handedOver stalled
        exact .ended hquiet .commit hwait st _ hst rfl
          ⟨hcontinues.number, hcontinues.threshold, rfl⟩ (by cases stalled <;> rfl) rfl
      | drain hblocks =>
        exact .ended hquiet .drain hwait st _ hst rfl (st.continues_countStall stalled) rfl rfl
  next => exact .stuck (List.forall_mem_nil _)

omit [Transport τ] in
theorem goingOn_handOver (stalled : Bool) : p.GoingOn stalled (p.handOver stalled) := by
  unfold handOver
  split
  next st hwait hst =>
    split
    next slot feed hphase hblocks hhand =>
      obtain ⟨-, hfilling, rfl⟩ := Feed.handOver_eq_ok hhand
      exact .ended (List.forall_mem_singleton.mpr rfl) .commit hwait st _ hst rfl
        (st.continues_handedOver stalled) (st.reading_handedOver stalled) rfl
    next => exact .stuck (List.forall_mem_nil _)
  next => exact .stuck (List.forall_mem_nil _)

omit [Transport τ] in
theorem goingOn_fail (stalled : Bool) : p.GoingOn stalled (p.fail stalled) := by
  unfold fail
  split
  next st hwait hst =>
    split
    next => exact .stuck (List.forall_mem_nil _)
    next =>
      exact .ended (List.forall_mem_singleton.mpr rfl) .commit hwait st _ hst rfl
        (st.continues_countStall stalled) rfl rfl
  next => exact .stuck (List.forall_mem_nil _)

omit [Transport τ] in
theorem goingOn_proceed (stalled : Bool) : p.GoingOn stalled (p.proceed stalled) := by
  unfold proceed
  split
  next st hwait hst =>
    have hcontinues := st.continues_countStall stalled
    split
    next => exact .stuck (List.forall_mem_nil _)
    next =>
      split
      next => exact .ended (List.forall_mem_nil _) .commit hwait st _ hst rfl hcontinues rfl rfl
      next =>
        exact .ended (List.forall_mem_singleton.mpr rfl) .commit hwait st _ hst rfl hcontinues rfl rfl
      next =>
        exact .ended (List.forall_mem_singleton.mpr rfl) .commit hwait st _ hst rfl hcontinues rfl rfl
  next => exact .stuck (List.forall_mem_nil _)

omit [Transport τ] in
theorem pending?_of_launching {stalled : Bool} (h : p.producer = .launching stalled) :
    p.pending? = none := by
  rw [pending?, h]

theorem goingOn_launch (stalled : Bool) : p.GoingOn stalled p.launch := by
  unfold launch
  split
  next counted st hlaunch hst =>
    unfold Session.startFirst
    rcases Transport.start p.session.transport st.handle st.format.frameRate
      st.format.layout.isStereo with ⟨e | u, t⟩
    · exact .stuck (List.forall_mem_nil _)
    · have hover := pending?_of_launching hlaunch
      exact .started (List.forall_mem_singleton.mpr rfl) hover st _ hst rfl ⟨rfl, rfl, rfl⟩ rfl
  next => exact .stuck (List.forall_mem_nil _)

theorem goingOn_refuse (stalled : Bool) : p.GoingOn stalled p.refuse := by
  unfold refuse
  split
  next counted st hlaunch hst =>
    unfold Session.startFirst
    rcases Transport.start p.session.transport st.handle st.format.frameRate
      st.format.layout.isStereo with ⟨e | u, t⟩
    · have hover := pending?_of_launching hlaunch
      exact .started (List.forall_mem_singleton.mpr rfl) hover st _ hst rfl ⟨rfl, rfl, rfl⟩ rfl
    · exact .stuck (List.forall_mem_nil _)
  next => exact .stuck (List.forall_mem_nil _)

end Playback

end Playout

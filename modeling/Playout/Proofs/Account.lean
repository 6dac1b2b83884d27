import Playout.Proofs.Bookkeeping

/-!
# Accounts

What a session has counted is what its log says.  While a stream is open the counters are those of
the current epoch, and afterwards those of the last one, up to its close.
-/

namespace Playout

/-! ## 1. The clock -/

namespace Timed

variable {τ : Type} {m : Timed τ} {q : Playback τ}

/-- All waits of the last call, the one under way included. -/
def HasWait (m : Timed τ) (w : Wait) : Prop := w ∈ m.waits ∨ m.wait = some w

/-- Every wait remembers whether it has taken longer than the threshold. -/
def Honest (m : Timed τ) : Prop := ∀ w, m.HasWait w → w.Honest m.playback.threshold

-- A call has stalled if one of its waits has taken longer than the threshold.
theorem hasStalled_eq (h : m.Honest) :
    m.hasStalled = (m.waits.map (·.elapsed)).any (m.playback.threshold < ·) := by
  rw [hasStalled, List.any_map, Bool.eq_iff_iff, List.any_eq_true, List.any_eq_true]
  refine exists_congr fun w => and_congr_right fun hw => ?_
  have hw : w.stalled = decide (m.playback.threshold < w.elapsed) := h w (.inl hw)
  rw [hw, Function.comp_apply]

theorem waited_of_none (h : m.playback.pending? = none) : m.waited q = [] := by
  rw [waited, h]

theorem waited_self (m : Timed τ) : m.waited m.playback = [] := by
  unfold waited
  cases h : m.playback.pending? <;> rfl

-- While somebody else acts a call does not stop waiting.
theorem waited_of_same {es : List Entry} (h : m.playback.Keeping es q)
    (hproducer : q.producer = m.playback.producer) : m.waited q = [] := by
  unfold waited Playback.pending?
  rw [hproducer]
  cases h with
  | closed hturns hp hq hlast =>
    rw [hp, hq]
    cases m.playback.producer <;> rfl
  | running hturns st st' hp hq hcontinues hreading =>
    rw [hp, hq]
    cases m.playback.producer <;> rfl

/-- Whether a call goes on or not, the books are kept. -/
theorem keeping_of_goingOn {r : List Event × Playback τ} (hm : m.Honest)
    (h : m.playback.GoingOn m.hasStalled r) : m.playback.Keeping (m.log r).1 r.2 := by
  cases h with
  | stuck hevs =>
    rw [log, waited_self, List.append_nil]
    exact .of_same (Entry.Quiet.of_events hevs _) rfl rfl
  | ended hevs c hwait st st' hst hq hcontinues hreading hover =>
    have hpending : m.playback.pending? = some (st.number, st.blocks c) := by
      rw [Playback.pending?, hwait, hst]
    have hthreshold : m.playback.threshold = st.stallThreshold.nanos := by
      rw [Playback.threshold, hst]
    rw [log, waited, hpending, hover]
    refine .running (fun x hx => ?_) st st' hst hq hcontinues ?_
    · rcases List.mem_append.mp hx with hx | hx
      · exact (Entry.Quiet.of_events hevs _ x hx).turns
      · rw [List.mem_singleton.mp hx]
        rfl
    · -- the last entry counts the stall, and the others count nothing
      rw [List.foldl_append, Entry.Quiet.foldl (Entry.Quiet.of_events hevs _), hreading,
        Stream.reading_countStall, hasStalled_eq hm, hthreshold]
      simp [Reading.add, Entry.pulled?, Entry.isStall]
  | started hevs hover st st' hst hq hcontinues hreading =>
    rw [log, waited_of_none hover, List.append_nil]
    exact .of_stream (Entry.Quiet.of_events hevs _) hst hq hcontinues hreading

/-- What an action does to a playback with a clock. -/
inductive Doing (m : Timed τ) : List Entry → Timed τ → Prop where
  -- A wait begins, goes on or is over, or nothing happens.
  | waiting {m' : Timed τ} (hplayback : m'.playback = m.playback)
      (hwaits : ∀ w, m'.HasWait w → w.Honest m.playback.threshold) : Doing m [] m'
  -- A device acts, or a call goes on.
  | acting {es : List Entry} {q : Playback τ} (h : m.playback.Keeping es q) :
      Doing m es { m with playback := q }
  -- A free producer acts.  A new call has not waited yet.
  | commanding {es : List Entry} {q : Playback τ} (h : m.playback.Booking es q) :
      Doing m es ⟨q, [], none⟩

-- Somebody else acts, and whoever waits goes on waiting.
theorem doing_of_other {evs : List Event} (hproducer : q.producer = m.playback.producer)
    (hq : m.playback.Keeping (evs.map (.event · q.threshold)) q) :
    m.Doing (m.log (evs, q)).1 (m.log (evs, q)).2 := by
  rw [log, waited_of_same hq hproducer, List.append_nil]
  exact .acting hq

variable [Transport τ]

theorem doing (hm : m.Honest) (hroomy : m.playback.Roomy) (a : Action) :
    m.Doing (m.step a).1 (m.step a).2 := by
  have hidle : m.Doing [] m := .waiting rfl hm
  cases a with
  | device k c =>
    exact doing_of_other (m.playback.consumption k c).producer
      (Playback.keeping_device hroomy k c _)
  | stray k s =>
    refine doing_of_other ?_ (Playback.keeping_stray hroomy k s)
    unfold Playback.stray
    split
    next => rfl
    next f hfeed => exact m.playback.producer_setFeed _ _
  | command c =>
    rw [step]
    split
    next hfree =>
      have hbooking := Playback.booking_of_transition hfree (Playback.transition_command hfree c)
      have hnone : waited { m with waits := [], wait := none } (m.playback.command c).2 = [] :=
        waited_of_none (by rw [Playback.pending?, hfree])
      rw [log, hnone, List.append_nil]
      exact .commanding hbooking
    next => exact hidle
  | look way =>
    rw [step]
    split
    next => exact hidle
    next =>
      refine .waiting rfl fun w hw => ?_
      rcases hw with hw | hw
      · exact hm w (.inl hw)
      · cases hw
        exact Wait.honest_begun _
    next w hw =>
      refine .waiting rfl fun w' hw' => ?_
      rcases hw' with hw' | hw'
      · rcases List.mem_cons.mp hw' with rfl | hw'
        · exact hm w' (.inr hw)
        · exact hm w' (.inl hw')
      · cases hw'
    next =>
      refine .acting (keeping_of_goingOn hm ?_)
      cases way with
      | finish => exact Playback.goingOn_finish _
      | handOver => exact Playback.goingOn_handOver _
      | fail => exact Playback.goingOn_fail _
      | proceed => exact Playback.goingOn_proceed _
    next => exact hidle
  | rest nanos =>
    rw [step]
    split
    next w hw =>
      refine .waiting rfl fun w' hw' => ?_
      rcases hw' with hw' | hw'
      · exact hm w' (.inl hw')
      · cases hw'
        exact (hm w (.inr hw)).rest nanos
    next => exact hidle
  | launch => exact .acting (keeping_of_goingOn hm (Playback.goingOn_launch _))
  | refuse => exact .acting (keeping_of_goingOn hm (Playback.goingOn_refuse _))

/-! ## 2. Every run -/

/-- The books of the session are those of its log. -/
structure Audited (entries : List Entry) (m : Timed τ) : Prop where
  books : m.playback.books = .ofEpoch (lastEpoch entries)
  roomy : m.playback.Roomy
  honest : m.Honest

omit [Transport τ] in
theorem audited_new (t : τ) (c : Settings) : Audited [] (new t c) where
  books := rfl
  roomy st hst := by cases hst
  honest w hw := by rcases hw with hw | hw <;> cases hw

omit [Transport τ] in
theorem Audited.books_of_booking {entries es : List Entry} (h : Audited entries m)
    (hq : m.playback.Booking es q) : q.books = .ofEpoch (lastEpoch (entries ++ es)) := by
  rw [← Books.foldl_note, List.foldl_append, Books.foldl_note, ← h.books, hq.books]

theorem Audited.step {entries : List Entry} (h : Audited entries m) (a : Action) :
    Audited (entries ++ (m.step a).1) (m.step a).2 := by
  have hdoing := doing h.honest h.roomy a
  generalize m.step a = r at hdoing
  obtain ⟨es, m'⟩ := r
  cases hdoing with
  | waiting hplayback hwaits =>
    have hsame : m'.playback = m.playback := hplayback
    refine ⟨?_, hsame ▸ h.roomy, fun w hw => ?_⟩
    · rw [hsame, List.append_nil]
      exact h.books
    · rw [hsame]
      exact hwaits w hw
  | acting hkept =>
    refine ⟨h.books_of_booking (.kept hkept), hkept.roomy h.roomy, fun w hw => ?_⟩
    show w.Honest (Playback.threshold _)
    rw [hkept.threshold]
    exact h.honest w hw
  | commanding hbooking =>
    refine ⟨h.books_of_booking hbooking, hbooking.roomy h.roomy, fun w hw => ?_⟩
    rcases hw with hw | hw <;> cases hw

-- A closed session keeps its counters until it is opened, and then starts again.
theorem reading_after_close (hm : m.Honest) (hroomy : m.playback.Roomy)
    (hclosed : m.playback.session.stream = none) (a : Action) :
    (m.step a).2.playback.session.reading =
      if (m.step a).2.playback.session.stream.isSome then .zero else m.playback.session.reading := by
  have hdoing := doing hm hroomy a
  generalize m.step a = r at hdoing
  obtain ⟨es, m'⟩ := r
  have hreading : ∀ {s : Session τ}, s.stream = none → s.reading = s.last := by
    intro s hs
    rw [Session.reading, hs]
  have hkeeping : ∀ {q : Playback τ}, m.playback.Keeping es q → q.session.reading =
      if q.session.stream.isSome then .zero else m.playback.session.reading := by
    intro q hq
    cases hq with
    | closed hturns hp hq hlast => simp [hreading hq, hreading hclosed, hq, hlast]
    | running hturns st st' hp => rw [hclosed] at hp; cases hp
  cases hdoing with
  | waiting hplayback hwaits =>
    have hsame : m'.playback = m.playback := hplayback
    simp [hsame, hclosed]
  | acting hkept => exact hkeeping hkept
  | commanding hbooking =>
    cases hbooking with
    | kept hkept => exact hkeeping hkept
    | opened f widens st hq hzero hroom => simp [Session.reading, hq, hzero]
    | closed limit hq hlast => simp [hreading hq, hq, hlast]

end Timed

-- A pull delivers something or is an underrun.
theorem Epoch.pulls_eq (x : Epoch) :
    x.reading.pulls = x.reading.underruns + .ofNat (x.deliveries.countP (0 < ·)) := by
  have hrest : x.deliveries.countP (fun n => decide (¬(n == 0) = true)) =
      x.deliveries.countP (0 < ·) :=
    List.countP_congr fun n _ => by simp [Nat.pos_iff_ne_zero]
  show UInt64.ofNat _ = UInt64.ofNat _ + UInt64.ofNat _
  rw [← UInt64.ofNat_add, List.length_eq_countP_add_countP (· == 0), hrest]
  rfl

namespace Timed

variable {τ : Type} [Transport τ]

/-- After every run of any session over any transport, also while a call waits, whatever its devices
do and however long it waits for them:

* the counters are those that the log has for the last epoch, and zero before the first one;
* a stream is open exactly while that epoch lasts, with the stall threshold that it began with;
* the pulls of the epoch that asked for something are its underruns and those that delivered
  something;
* whatever happens to a closed session, it keeps its counters, unless it is opened, and then they
  start at zero. -/
theorem accounts (t : τ) (c : Settings) (as : List Action) :
    let r := (new t c).run as
    let s := r.2.playback.session
    s.reading = ((lastEpoch r.1).map (·.reading)).getD .zero ∧
    s.stream.map (fun st => (st.number, st.stallThreshold.nanos)) =
      (lastEpoch r.1).bind (·.current?) ∧
    (∀ x, lastEpoch r.1 = some x →
      s.reading.pulls = s.reading.underruns + .ofNat (x.deliveries.countP (0 < ·))) ∧
    (s.stream = none → ∀ a,
      let s' := (r.2.step a).2.playback.session
      s'.reading = if s'.stream.isSome then .zero else s.reading) := by
  intro r s
  have haudited : Audited r.1 r.2 :=
    run_induction (audited_new t c) (fun _ _ a h => h.step a) as
  have hreading : s.reading = ((lastEpoch r.1).map (·.reading)).getD .zero := by
    have hbooks := congrArg Books.reading haudited.books
    cases hlast : lastEpoch r.1 <;> rw [hlast] at hbooks <;> exact hbooks
  refine ⟨hreading, ?_, fun x hx => ?_, fun hclosed a => ?_⟩
  · have hbooks := congrArg Books.current haudited.books
    cases hlast : lastEpoch r.1 <;> rw [hlast] at hbooks <;> exact hbooks
  · rw [hreading, hx]
    exact x.pulls_eq
  · exact reading_after_close haudited.honest haudited.roomy hclosed a

/-- A `borrow` that waits twice, for too long the first time, counts one stall; the second time it
waits for a replay, an underrun.  A pull from the feed after the close counts nothing. -/
theorem accounts_after_late_pull :
    let hardware : Hardware := .new (.manual ⟨.linear, 0, true⟩) .none
    let settings : Settings := { Settings.singleBuffered with frameCount := 4 }
    let script : List Action :=
      [.command (.openStream Allocator.machine ⟨.pcm8, .mono, 8000⟩),
        .command (.enter .borrow), .look .finish, .command (.enter .commit), .look .finish,
        .command (.enter .borrow), .look .finish, .rest 3000000, .device 0 (.pull 3), .look .finish,
        .device 0 (.hold 3 "kept"), .look .finish, .rest 5, .device 0 (.drop "kept"), .look .finish,
        .look .finish, .command .close, .device 0 (.pull 5)]
    let r := (new hardware settings).run script
    r.2.playback.session.stream = none ∧
      r.2.playback.session.reading = ⟨2, 3, 1, 1⟩ ∧
      (r.2.step (.device 0 (.pull 5))).2.playback.session.reading = ⟨2, 3, 1, 1⟩ := by
  intro hardware settings script r
  have hclosed : r.2.playback.session.stream = none := by decide +kernel
  have hepoch : ((lastEpoch r.1).map (·.reading)).getD .zero = ⟨2, 3, 1, 1⟩ := by decide +kernel
  have hstill : (r.2.step (.device 0 (.pull 5))).2.playback.session.stream.isSome = false := by
    decide +kernel
  have hall := accounts hardware settings script
  have hr : (new hardware settings).run script = r := rfl
  rw [hr] at hall
  obtain ⟨hreading, -, -, hafter⟩ := hall
  have hlate := hafter hclosed (.device 0 (.pull 5))
  rw [hepoch] at hreading
  dsimp only at hlate
  rw [hstill, if_neg Bool.false_ne_true, hreading] at hlate
  exact ⟨hclosed, hreading, hlate⟩

end Timed

end Playout

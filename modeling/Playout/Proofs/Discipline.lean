import Mathlib.Data.List.Nodup
import Playout.Proofs.Calls
import Playout.Proofs.Reachable
import Playout.Bench.Hardware

/-!
# How a session calls its transport

Whatever a session is asked to do, in whatever order, and wherever its transport refuses: what the
transport receives is a row of segments, one for each opening that got as far as the transport.  So
no handle is lost, none is used again, and there are never two at a time.
-/

namespace Playout

/-! ## 1. Openings that reach the transport -/

/-- Whether it is the transport that has failed. -/
def OpeningError.isRefusal : OpeningError → Bool
  | .noCommonFormat _ => false
  | .allocation f => decide (f = .noHandle)
  | .setUp _ => true

@[simp] theorem OpeningError.isRefusal_ofRefusal (e : Refusal) :
    (ofRefusal e).isRefusal = true := by
  cases e <;> rfl

theorem requestBuffer_ne_noHandle (mem : Allocator) (request bytes align : Nat) :
    requestBuffer mem request bytes align ≠ .error .noHandle := by
  unfold requestBuffer
  split
  · exact nofun
  split
  · exact nofun
  split
  · exact nofun
  split <;> exact nofun

theorem requestBuffers_ne_noHandle (mem : Allocator) (bytes align request count : Nat) :
    requestBuffers mem bytes align request count ≠ .error .noHandle := by
  induction count generalizing request with
  | zero => exact nofun
  | succ count ih =>
    unfold requestBuffers
    split
    next e he =>
      intro h
      cases h
      exact requestBuffer_ne_noHandle mem request bytes align he
    next => exact ih (request + 1)

-- Memory is not the transport's.
theorem Buffers.allocate_ne_noHandle (mem : Allocator) (f : Format) (frames align : Nat)
    (double : Bool) : allocate mem f frames double align ≠ .error .noHandle := by
  unfold allocate
  split
  · exact nofun
  next bytes _ =>
    split
    next e he =>
      intro h
      cases h
      exact requestBuffers_ne_noHandle mem bytes align 0 _ he
    next => exact nofun

/-- What has come of an opening that reached the transport. -/
def Event.setUp? : Event → Option (Except OpeningError FeedRef)
  | .opened k f _ => some (.ok ⟨k, f⟩)
  | .notOpened e => if e.isRefusal then some (.error e) else none
  | _ => none

/-- The openings that reached the transport, in order. -/
def setUps (events : List Event) : List (Except OpeningError FeedRef) :=
  events.filterMap Event.setUp?

theorem setUps_append (xs ys : List Event) : setUps (xs ++ ys) = setUps xs ++ setUps ys :=
  List.filterMap_append

/-! ## 2. What the log looks like at any time -/

namespace Stream

/-- The feed as the transport knows it. -/
def ref (st : Stream) : FeedRef := ⟨st.number, st.format⟩

def isRunning (st : Stream) : Bool := decide (st.phase = .playing)

/-- Two states of a stream that its transport cannot tell apart. -/
structure Alike (st st' : Stream) : Prop where
  handle : st'.handle = st.handle
  ref : st'.ref = st.ref
  isRunning : st'.isRunning = st.isRunning

theorem Alike.refl (st : Stream) : st.Alike st := ⟨rfl, rfl, rfl⟩

theorem alike_countStall (st : Stream) (stalled : Bool) : st.Alike (st.countStall stalled) := by
  cases stalled <;> exact ⟨rfl, rfl, rfl⟩

theorem alike_borrowed (st : Stream) (stalled : Bool) : st.Alike (st.borrowed stalled) := by
  cases stalled <;> exact ⟨rfl, rfl, rfl⟩

theorem alike_handedOver (st : Stream) (stalled : Bool) : st.Alike (st.handedOver stalled) := by
  cases stalled <;> exact ⟨rfl, rfl, rfl⟩

theorem alike_write (st : Stream) (edits : List Edit) : st.Alike (st.write edits) :=
  ⟨rfl, rfl, rfl⟩

theorem alike_widenActive {st st' : Stream} (h : st.widenActive = .ok st') : st.Alike st' := by
  unfold widenActive at h
  split at h
  · split at h
    · cases h
      exact ⟨rfl, rfl, rfl⟩
    · cases h
  · cases h
    exact .refl st

theorem isRunning_of_ne {st : Stream} (h : st.phase ≠ .playing) : st.isRunning = false :=
  decide_eq_false h

theorem isRunning_of_playing {st : Stream} (h : st.phase = .playing) : st.isRunning = true :=
  decide_eq_true h

end Stream

namespace Playback

variable {τ : Type}

/-- The log is made of segments, one for each opening that reached the transport; the last one is
not complete while the stream is open. -/
inductive Accounted (tr : List Event) (p : Playback (Logged τ)) : Prop where
  | closed (hclosed : p.session.stream = none) (segments : List (List Exchange))
      (hsegments : List.Forall₂ Segment (setUps tr) segments)
      (hlog : p.session.transport.log = segments.flatten)
  | opened (st : Stream) (hst : p.session.stream = some st)
      (before : List (Except OpeningError FeedRef)) (segments : List (List Exchange))
      (calls : List Exchange) (hsetUps : setUps tr = before ++ [.ok st.ref])
      (hsegments : List.Forall₂ Segment before segments)
      (hbegun : Begun st.handle st.ref st.isRunning calls)
      (hlog : p.session.transport.log = segments.flatten ++ calls)

variable {tr es : List Event} {p p' : Playback (Logged τ)}

namespace Accounted

theorem start (t : τ) (c : Settings) : Accounted [] (new (Logged.new t) c) :=
  .closed rfl [] .nil rfl

-- What the transport cannot tell apart has the same log.
theorem of_alike (ha : Accounted tr p) {st st' : Stream} (hst : p.session.stream = some st)
    (hst' : p'.session.stream = some st') (halike : st.Alike st')
    (htransport : p'.session.transport = p.session.transport) (hes : setUps es = []) :
    Accounted (tr ++ es) p' := by
  cases ha with
  | closed hclosed segments hsegments hlog =>
    rw [hst] at hclosed
    cases hclosed
  | opened st₀ hst₀ before segments calls hsetUps hsegments hbegun hlog =>
    rw [hst] at hst₀
    cases hst₀
    refine .opened st' hst' before segments calls ?_ hsegments ?_ ?_
    · rw [setUps_append, hes, List.append_nil, hsetUps, halike.ref]
    · rw [halike.handle, halike.ref, halike.isRunning]
      exact hbegun
    · rw [htransport, hlog]

theorem of_same (ha : Accounted tr p) (hstream : p'.session.stream = p.session.stream)
    (htransport : p'.session.transport = p.session.transport) (hes : setUps es = []) :
    Accounted (tr ++ es) p' := by
  cases hst : p.session.stream with
  | some st => exact ha.of_alike hst (hstream.trans hst) (.refl st) htransport hes
  | none =>
    cases ha with
    | closed hclosed segments hsegments hlog =>
      refine .closed (hstream.trans hclosed) segments ?_ (htransport ▸ hlog)
      rw [setUps_append, hes, List.append_nil]
      exact hsegments
    | opened st hst₀ =>
      rw [hst] at hst₀
      cases hst₀

-- A start or a stop.
theorem turn (ha : Accounted tr p) {st st' : Stream} (hst : p.session.stream = some st)
    (hst' : p'.session.stream = some st') (hhandle : st'.handle = st.handle)
    (href : st'.ref = st.ref) {x : Exchange}
    (hturn : Turn st.handle st.format st.isRunning x st'.isRunning)
    (hlog : p'.session.transport.log = p.session.transport.log ++ [x]) (hes : setUps es = []) :
    Accounted (tr ++ es) p' := by
  cases ha with
  | closed hclosed =>
    rw [hst] at hclosed
    cases hclosed
  | opened st₀ hst₀ before segments calls hsetUps hsegments hbegun hlog₀ =>
    rw [hst] at hst₀
    cases hst₀
    refine .opened st' hst' before segments (calls ++ [x]) ?_ hsegments ?_ ?_
    · rw [setUps_append, hes, List.append_nil, hsetUps, href]
    · rw [hhandle, href]
      exact hbegun.turn hturn
    · rw [hlog, hlog₀, List.append_assoc]

-- An opening that the transport has ended.
theorem refused (ha : Accounted tr p) (hclosed : p.session.stream = none)
    (hclosed' : p'.session.stream = none) {e : OpeningError} {calls : List Exchange}
    (hsegment : Segment (.error e) calls)
    (hlog : p'.session.transport.log = p.session.transport.log ++ calls)
    (hes : setUps es = [.error e]) : Accounted (tr ++ es) p' := by
  cases ha with
  | opened st hst =>
    rw [hclosed] at hst
    cases hst
  | closed _ segments hsegments hlog₀ =>
    refine .closed hclosed' (segments ++ [calls]) ?_ ?_
    · rw [setUps_append, hes]
      exact List.rel_append hsegments (.cons hsegment .nil)
    · rw [hlog, hlog₀, List.flatten_append, List.flatten_singleton]

-- A stream has been set up.
theorem installed (ha : Accounted tr p) (hclosed : p.session.stream = none) {st : Stream}
    (hst : p'.session.stream = some st) {calls : List Exchange}
    (hbegun : Begun st.handle st.ref st.isRunning calls)
    (hlog : p'.session.transport.log = p.session.transport.log ++ calls)
    (hes : setUps es = [.ok st.ref]) : Accounted (tr ++ es) p' := by
  cases ha with
  | opened st hst₀ =>
    rw [hclosed] at hst₀
    cases hst₀
  | closed _ segments hsegments hlog₀ =>
    refine .opened st hst (setUps tr) segments calls ?_ hsegments hbegun ?_
    · rw [setUps_append, hes]
    · rw [hlog, hlog₀]

/-! ## 3. What an action adds to the log -/

theorem device (ha : Accounted tr p) (k : Nat) (c : ConsumerStep) :
    Accounted (tr ++ [.device k c (p.consume k c).1]) (p.consume k c).2 := by
  have hset : ∀ (j : Nat) (f f' : Feed) (live : LivePulls), p.feed? j = some f →
      f'.format = f.format →
      Accounted (tr ++ [.device k c (p.consume k c).1]) { p.setFeed j f' with live := live } := by
    intro j f f' live hf hformat
    have hstream := p.stream_setFeed j f'
    have htransport := p.transport_setFeed j f'
    cases hst : p.session.stream with
    | none =>
      rw [hst] at hstream
      exact ha.of_same (hstream.trans hst.symm) htransport rfl
    | some st =>
      rw [hst, Option.map_some] at hstream
      refine ha.of_alike hst hstream ?_ htransport rfl
      split
      next hj =>
        -- the feed of the open stream, in the same format as before
        have hown : f = st.feed := by
          rw [feed?, hst] at hf
          simpa [hj] using hf.symm
        refine ⟨rfl, ?_, rfl⟩
        rw [Stream.ref, Stream.ref, Stream.format, Stream.format, hformat, hown]
      next => exact .refl st
  have hend := p.consumption k c
  generalize p.consume k c = r at hend hset ⊢
  cases hend with
  | nothing => exact ha.of_same rfl rfl rfl
  | pulled n f f' hf hdrop =>
    rw [← p.setFeed_live]
    exact hset k f f' p.live hf
      ((Feed.sameBytes_drop hdrop).format.trans (f.sameBytes_pull n).format)
  | held n name f hname hf => exact hset k f _ _ hf (f.sameBytes_pull n).format
  | peeked => exact ha.of_same rfl rfl rfl
  | dropped name l f f' hname hf hdrop =>
    exact hset l.feed f f' _ hf (Feed.sameBytes_drop hdrop).format
  | faulted => exact ha.of_same rfl rfl rfl

variable [Transport τ]

-- Closing completes the last segment.
theorem close (ha : Accounted tr p) :
    ∃ segments, List.Forall₂ Segment (setUps tr) segments ∧
      p.session.close.transport.log = segments.flatten := by
  cases ha with
  | closed hclosed segments hsegments hlog =>
    refine ⟨segments, hsegments, ?_⟩
    unfold Session.close
    simp only [hclosed]
    exact hlog
  | opened st hst before segments calls hsetUps hsegments hbegun hlog =>
    refine ⟨segments ++ [calls ++ [.stop st.handle, .destroy st.handle]], ?_, ?_⟩
    · rw [hsetUps]
      exact List.rel_append hsegments (.cons (.closed hbegun) .nil)
    · unfold Session.close
      simp only [hst]
      rw [Logged.log_destroy, Logged.log_stop, hlog, List.flatten_append, List.flatten_singleton]
      simp only [List.append_assoc, List.cons_append, List.nil_append]

theorem openStream (ha : Accounted tr p) (hclosed : p.session.stream = none) {mem : Allocator}
    {requested : Format} {r : Except OpeningError Format × Session (Logged τ)}
    (hend : p.session.Opening mem requested r) :
    Accounted
      (tr ++ [match r.1 with
        | .error e => Event.notOpened e
        | .ok f => .opened p.session.opens f (r.2.stream.any (·.widens))])
      { p with session := r.2 } := by
  cases hend with
  | noFormat u hnegotiate => exact ha.of_same rfl rfl rfl
  | noMemory f e hnegotiate hallocate =>
    -- the error is none that the transport could have caused
    refine ha.of_same rfl rfl ?_
    have hmemory : e ≠ .noHandle := by
      rintro rfl
      exact Buffers.allocate_ne_noHandle _ _ _ _ _ hallocate
    simp [setUps, Event.setUp?, OpeningError.isRefusal, hmemory]
  | notCreated f b e t hnegotiate hallocate hcreate =>
    refine ha.refused hclosed hclosed (.notCreated b.bufferBytes e) (Logged.log_create hcreate) ?_
    simp [setUps, Event.setUp?]
  | notRegistered f b handle e t t' hnegotiate hallocate hcreate hregister =>
    refine ha.refused hclosed hclosed (.notRegistered b.bufferBytes handle ⟨p.session.opens, f⟩ e)
      ?_ ?_
    · change (Transport.destroy t' handle).log = _
      rw [Logged.log_destroy, Logged.log_register hregister, Logged.log_create hcreate]
      simp only [List.append_assoc, List.cons_append, List.nil_append]
    · simp [setUps, Event.setUp?]
  | installed f b handle t t' threshold hnegotiate hallocate hcreate hregister hthreshold =>
    refine ha.installed hclosed rfl (.setUp b.bufferBytes p.session.settings.gain) ?_ rfl
    change (Transport.setGain t' handle p.session.settings.gain).log = _
    rw [Logged.log_setGain, Logged.log_register hregister, Logged.log_create hcreate]
    simp only [List.append_assoc, List.cons_append, List.nil_append]
    rfl

theorem finished (ha : Accounted tr p) {st : Stream} (hst : p.session.stream = some st)
    {c : Call} {stalled : Bool} {a : Answer} {s : Session (Logged τ)} {producer : Producer}
    {lent : Option Slot} (hend : p.session.Finishing st stalled c (.ok (some (a, s)))) :
    Accounted (tr ++ [.answered st.number c stalled a])
      { p with session := s, producer := producer, lent := lent } := by
  cases hend with
  | borrow hfillable hsize => exact ha.of_alike hst rfl (st.alike_borrowed stalled) rfl rfl
  | commit hblocks hfilling hphase =>
    exact ha.of_alike hst rfl (st.alike_handedOver stalled) rfl rfl
  | start hblocks hfilling hphase t hstart =>
    have halike := st.alike_handedOver stalled
    refine ha.turn hst rfl halike.handle halike.ref ?_ (Logged.log_start hstart) rfl
    rw [Stream.isRunning_of_ne (by rw [hphase]; decide)]
    exact .started
  | refuse hblocks hfilling hphase e t hstart =>
    have halike := st.alike_handedOver stalled
    -- the feed is another one, of the same number and format
    have href : Stream.ref { st.handedOver stalled with
        feed := st.feed.setHandshake st.feed.handshake.cleared } = st.ref := by
      rw [Stream.ref, Stream.ref, st.number_handedOver stalled]
      rfl
    refine ha.turn hst rfl halike.handle href ?_ (Logged.log_start hstart) rfl
    have hidle : st.isRunning = false := Stream.isRunning_of_ne (by rw [hphase]; decide)
    rw [show Stream.isRunning { st.handedOver stalled with
      feed := st.feed.setHandshake st.feed.handshake.cleared } = false from
        halike.isRunning.trans hidle, hidle]
    exact .refused e
  | drain hblocks => exact ha.of_alike hst rfl (st.alike_countStall stalled) rfl rfl

theorem transition (ha : Accounted tr p) (hs : Sound tr p) {q : Playback (Logged τ)}
    (h : p.Transition es q) : Accounted (tr ++ es) q := by
  cases h with
  | idle => exact ha.of_same rfl rfl rfl
  | fault f => exact ha.of_same rfl rfl rfl
  | notOpened hfree hclosed mem requested e s hend => exact ha.openStream hclosed hend
  | opened hfree hclosed mem requested f s hend => exact ha.openStream hclosed hend
  | skipped hfree c st hst hphase => exact ha.of_same rfl rfl rfl
  | entered hfree c st hst hphase hc => exact ha.of_same rfl rfl rfl
  | committing hfree st st' hst hphase hfilling hwiden =>
    exact ha.of_alike hst rfl (Stream.alike_widenActive hwiden) rfl rfl
  | wrote hfree edits st slot hst hlent => exact ha.of_alike hst rfl (st.alike_write edits) rfl rfl
  | paused hfree st hst hphase => exact ha.of_same rfl rfl rfl
  | stopped hfree st hst hphase =>
    refine ha.turn hst rfl rfl rfl ?_ Logged.log_stop rfl
    rw [Stream.isRunning_of_playing hphase]
    exact .stopped
  | resumed hfree st hst hphase => exact ha.of_same rfl rfl rfl
  | restarted hfree st hst hphase t hstart =>
    refine ha.turn hst rfl rfl rfl ?_ (Logged.log_start hstart) rfl
    rw [Stream.isRunning_of_ne (by rw [hphase]; decide)]
    exact .started
  | notRestarted hfree st hst hphase e t hstart =>
    refine ha.turn hst hst rfl rfl ?_ (Logged.log_start hstart) rfl
    rw [Stream.isRunning_of_ne (by rw [hphase]; decide)]
    exact .refused e
  | closed hfree hclosed => exact ha.of_same rfl rfl rfl
  | closing hfree st hst =>
    obtain ⟨segments, hsegments, hlog⟩ := ha.close
    unfold Session.close at hlog
    simp only [hst] at hlog
    refine .closed rfl segments ?_ hlog
    rw [setUps_append]
    exact (List.append_nil _).symm ▸ hsegments
  | configured hfree c => exact ha.of_same rfl rfl rfl
  | finished c hwait st hst stalled a s hend => exact ha.finished hst hend
  | handedOver hwait st hst hphase hblocks hfilling stalled =>
    exact ha.of_alike hst rfl (st.alike_handedOver stalled) rfl rfl
  | launched stalled hlaunch st hst t hstart =>
    -- nothing has started the device since the hand-over
    have hphase := hs.launching (by rw [hlaunch]; rfl) st hst
    refine ha.turn hst rfl rfl rfl ?_ (Logged.log_start hstart) rfl
    rw [Stream.isRunning_of_ne (by rw [hphase]; decide)]
    exact .started

theorem step (ha : Accounted tr p) (hs : Sound tr p) (a : Action) :
    Accounted (tr ++ (p.step a).1) (p.step a).2 := by
  rcases p.step_cases a with ⟨k, c, -, hstep⟩ | h
  · rw [hstep]
    exact ha.device k c
  · exact ha.transition hs h

end Accounted

variable [Transport τ]

theorem accounted_run (t : τ) (c : Settings) (as : List Action) :
    Accounted ((new (Logged.new t) c).run as).1 ((new (Logged.new t) c).run as).2 := by
  have hboth := run_induction (motive := fun tr p => Sound tr p ∧ Accounted tr p)
    ⟨sound_new (Logged.new t) c, Accounted.start t c⟩
    (fun _ _ a h => ⟨h.1.step a, h.2.step h.1 a⟩) as
  exact hboth.2

/-! ## 4. The discipline -/

theorem balanced_of_segments {rs : List (Except OpeningError FeedRef)}
    {segments : List (List Exchange)} (h : List.Forall₂ Segment rs segments) :
    Balanced segments.flatten := by
  induction h with
  | nil => exact .nil
  | cons hsegment hrest ih =>
    rw [List.flatten_cons]
    exact hsegment.balanced.append ih

/-- The calls that the transport has received when the session is given up. -/
def finalLog (p : Playback (Logged τ)) : List Exchange := p.session.close.transport.log

/-- After every run, once the session is closed: the calls that the transport has received are
segments, one for each opening that reached it, with the answer of that opening.  So what was
created was destroyed, in this order, and at no moment were two handles live.  Where the transport
hands out fresh handles, each was destroyed once, and no call after that was about it. -/
theorem calls_are_segments (t : τ) (c : Settings) (as : List Action) :
    let r := (new (Logged.new t) c).run as
    let log := r.2.finalLog
    (∃ segments, List.Forall₂ Segment (setUps r.1) segments ∧ log = segments.flatten) ∧
      destroyed log = created log ∧
      OneAtATime log ∧
      ((created log).Nodup →
        (∀ h ∈ created log, (destroyed log).count h = 1) ∧ log.Pairwise Exchange.Spares) := by
  intro r log
  obtain ⟨segments, hsegments, hlog⟩ := (accounted_run t c as).close
  have hbalanced : Balanced log := by
    change Balanced r.2.session.close.transport.log
    rw [hlog]
    exact balanced_of_segments hsegments
  refine ⟨⟨segments, hsegments, hlog⟩, hbalanced.destroyed_eq, hbalanced.oneAtATime, ?_⟩
  -- the handles that were destroyed are those that were created, which are all different
  intro hfresh
  refine ⟨fun h hh => ?_, hbalanced.spares hfresh⟩
  rw [hbalanced.destroyed_eq]
  exact List.nodup_iff_count_eq_one.mp hfresh h hh

/-- Two streams on a device that counts its handles up: one is played, paused and started again, the
other is given up before anything happens. -/
theorem calls_of_two_streams :
    let device : Hardware.Manual := ⟨{ pcm8 := some ⟨.both, .any⟩ }, 4, false⟩
    let r := (new (Logged.new (Hardware.new (.manual device) .none)) Settings.standard).run
      [.command (.openStream Allocator.machine ⟨.pcm8, .mono, 8000⟩),
        .command (.enter .borrow), .finish false, .command (.enter .commit), .finish false,
        .command .pause, .command .pause, .command .resume, .command .close, .command .pause,
        .command (.openStream Allocator.machine ⟨.pcm8, .stereo, 44100⟩)]
    let log := r.2.finalLog
    created log = [⟨4⟩, ⟨5⟩] ∧ (destroyed log).count ⟨5⟩ = 1 ∧ log.Pairwise Exchange.Spares := by
  intro device r log
  have hcreated : created log = [⟨4⟩, ⟨5⟩] := by decide +kernel
  have hall := calls_are_segments (Hardware.new (.manual device) .none) Settings.standard
    [.command (.openStream Allocator.machine ⟨.pcm8, .mono, 8000⟩),
      .command (.enter .borrow), .finish false, .command (.enter .commit), .finish false,
      .command .pause, .command .pause, .command .resume, .command .close, .command .pause,
      .command (.openStream Allocator.machine ⟨.pcm8, .stereo, 44100⟩)]
  have hmem : (⟨5⟩ : Handle) ∈ created log := by
    rw [hcreated]
    decide
  have hfresh : (created log).Nodup := by
    rw [hcreated]
    decide
  obtain ⟨hcount, hspares⟩ := hall.2.2.2 hfresh
  exact ⟨hcreated, hcount ⟨5⟩ hmem, hspares⟩

end Playback

end Playout

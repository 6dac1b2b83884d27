import Playout.Proofs.Calls
import Playout.Proofs.Intact
import Playout.Proofs.Misuse

/-!
# Pausing

A stream that is paused and started again is the stream that it was.  Until the start succeeds a
producer may ask for anything that the contract forbids on a paused stream, commit, drain, pause
again and set the settings that are set already; none of it does anything, and neither does a start
that fails.  Only the transport hears of the pause.
-/

namespace Playout

/-! ## 1. While a stream is paused -/

namespace Command

/-- Whether a producer that calls this on a paused stream means to go on as before: it does not
close the stream and leaves these settings. -/
def isIdle (c : Settings) : Command → Bool
  | .configure c' => decide (c' = c)
  | .write _ | .close => false
  | .openStream _ _ | .enter _ | .pause | .resume => true

def isResume : Command → Bool
  | .resume => true
  | _ => false

end Command

namespace Playback

variable {τ : Type}

/-- The playback with the stream paused, over another state of its transport. -/
def resting (p : Playback τ) (st : Stream) (t : τ) : Playback τ :=
  { p with
    session := { p.session with transport := t, stream := some { st with phase := .paused } } }

variable [Transport τ] {p q : Playback τ} {st : Stream}

/-- What comes of an idle call on a paused stream. -/
inductive Idling (q : Playback τ) : Command → List Event × Playback τ → Prop where
  | paused : Idling q .pause ([.paused], q)
  -- A commit, or a call for everything to be played, is over at once.
  | skipped (c : Call) (hc : c ≠ .borrow) : Idling q (.enter c) ([.skipped c], q)
  | noBuffer : Idling q (.enter .borrow) ([.fault (.contract (.wrongState .borrow .paused))], q)
  | notOpened (mem : Allocator) (requested : Format) :
      Idling q (.openStream mem requested)
        ([.fault (.contract (.wrongState .openStream .paused))], q)
  | configured : Idling q (.configure q.session.settings) ([], q)
  -- The transport does not start.
  | notRestarted (st : Stream) (hst : q.session.stream = some st) (e : Refusal) (t : τ)
      (hstart : q.startOf st = (.error e, t)) :
      Idling q .resume
        ([.resumed (.refused e)], { q with session := { q.session with transport := t } })

omit [Transport τ] in
theorem state_of_paused (hst : q.session.stream = some st) (hphase : st.phase = .paused) :
    q.session.state = .paused := by
  simp [Session.state, hst, hphase, Phase.state]

omit [Transport τ] in
-- On a paused stream commits and calls for everything to be played return at once.
theorem enter_of_paused (hst : q.session.stream = some st) (hphase : st.phase = .paused) {c : Call}
    (hc : c ≠ .borrow) : q.enter c = ([.skipped c], q) := by
  cases c with
  | borrow => exact absurd rfl hc
  | commit => simp only [enter, Session.enter, hst, hphase]
  | drain => simp only [enter, Session.enter, state_of_paused hst hphase]

omit [Transport τ] in
theorem borrow_of_paused (hst : q.session.stream = some st) (hphase : st.phase = .paused) :
    q.enter .borrow = ([.fault (.contract (.wrongState .borrow .paused))], q) := by
  simp only [enter, Session.enter, state_of_paused hst hphase, Session.wrongState]

/-- Every idle call ends in one of these, as long as it does not start the stream. -/
theorem idling (hfree : q.producer = .free) (hst : q.session.stream = some st)
    (hphase : st.phase = .paused) {cmd : Command} (hidle : cmd.isIdle q.session.settings = true)
    (hstill : .resumed .done ∉ (q.step (.command cmd)).1) :
    q.Idling cmd (q.step (.command cmd)) := by
  have hstep : q.step (.command cmd) = q.command cmd := by rw [Playback.step, hfree]
  have hstate := state_of_paused hst hphase
  rw [hstep] at hstill ⊢
  cases cmd with
  | openStream mem requested =>
    simp only [command, openStream, Session.openStream_of_open hst, Session.wrongState, hstate]
    exact .notOpened mem requested
  | enter c =>
    by_cases hc : c = .borrow
    · rw [hc, command, borrow_of_paused hst hphase]
      exact .noBuffer
    · rw [command, enter_of_paused hst hphase hc]
      exact .skipped c hc
  | write edits => cases hidle
  | pause =>
    simp only [command, pause, Session.pause, hst, hphase]
    exact .paused
  | resume =>
    rcases hstart : q.startOf st with ⟨e | u, t⟩
    · have hend := Idling.notRestarted st hst e t hstart
      rw [startOf] at hstart
      simp only [command, resume, Session.resume, hst, hphase, hstart]
      simpa only [hst] using hend
    · rw [startOf] at hstart
      simp [command, resume, Session.resume, hst, hphase, hstart] at hstill
  | close => cases hidle
  | configure c =>
    obtain rfl : c = q.session.settings := of_decide_eq_true hidle
    exact .configured

/-- Also with every check on, an idle call on a paused stream is refused or done as it should. -/
theorem verdict_of_paused (hst : q.session.stream = some st) (hphase : st.phase = .paused)
    {cmd : Command} (hidle : cmd.isIdle q.session.settings = true) :
    q.Verdict cmd ((Conduct.perform q.lent cmd).run q.session.desk) := by
  have hstate := state_of_paused hst hphase
  cases cmd with
  | openStream mem requested => exact .openStream q mem requested
  | enter c =>
    by_cases hc : c = .borrow
    · have hrun : (Conduct.perform q.lent (.enter .borrow)).run q.session.desk =
          .error (.fault (.contract (.wrongState .borrow .paused))) q.session.desk := by
        simp [Conduct.perform, Conduct.run_forget, Conduct.enter, Session.desk, hstate]
      rw [hc, hrun]
      refine .refused _ ?_ (borrow_of_paused hst hphase)
      simp [Desk.Forbids, Session.desk, hstate]
    · have hreturns : (Conduct.perform q.lent (.enter c)).run q.session.desk =
          .ok () q.session.desk ∧ ¬ q.session.desk.Forbids (.enter c) := by
        cases c with
        | borrow => exact absurd rfl hc
        | commit | drain =>
          simp [-bind_pure_comp, Conduct.perform, Conduct.run_forget, Conduct.enter,
            Desk.Forbids, Session.desk, hstate]
      rw [hreturns.1]
      exact .done [.skipped c] q hreturns.2 (enter_of_paused hst hphase hc) (by simp)
  | write edits => cases hidle
  | pause => exact .pause q
  | resume => exact .resume q
  | close => cases hidle
  | configure c => exact .done [] { q with session := q.session.configure c } id rfl (by simp)

/-! ## 2. A whole pause -/

variable {p q : Playback (Logged τ)} {cmds : List Command}

/-- The exchanges of starts of a stream that are refused, one for each cause. -/
def refusedStarts (st : Stream) (es : List Refusal) : List Exchange :=
  es.map fun e => .start st.handle st.format.frameRate st.format.layout.isStereo (.error e)

/-- Idle calls leave a resting stream where it is. -/
theorem run_resting {t : Logged τ} (hfree : p.producer = .free)
    (hidle : ∀ cmd ∈ cmds, cmd.isIdle p.session.settings = true)
    (hstill : .resumed .done ∉ ((p.resting st t).run (cmds.map .command)).1) :
    ∃ t' es, ((p.resting st t).run (cmds.map .command)).2 = p.resting st t' ∧
      es.length = cmds.countP (·.isResume) ∧ t'.log = t.log ++ refusedStarts st es := by
  induction cmds generalizing t with
  | nil => exact ⟨t, [], rfl, rfl, (List.append_nil _).symm⟩
  | cons cmd cmds ih =>
    have hrest : ∀ cmd ∈ cmds, cmd.isIdle p.session.settings = true := fun c hc =>
      hidle c (List.mem_cons_of_mem _ hc)
    rw [List.map_cons, run, List.mem_append, not_or] at hstill
    have hstep := idling (q := p.resting st t) hfree rfl rfl (hidle cmd List.mem_cons_self) hstill.1
    rw [List.map_cons, run]
    generalize (p.resting st t).step (.command cmd) = r at hstep hstill
    cases hstep with
    | paused | skipped | noBuffer | notOpened | configured => exact ih hrest hstill.2
    | notRestarted _ hst e t' hstart =>
      cases hst
      obtain ⟨t'', es, hrun, hcount, hlog⟩ := ih (t := t') hrest hstill.2
      refine ⟨t'', e :: es, hrun, ?_, ?_⟩
      · rw [List.length_cons, hcount, List.countP_cons_of_pos rfl]
      · have hnoted : t'.log = t.log ++ [_] := Logged.log_start hstart
        rw [hlog, hnoted, List.append_assoc]
        rfl

-- What a run of fewer calls did not do, it did not do either.
theorem not_mem_run_of_append {as bs : List Action} {x : Event} (h : x ∉ (p.run (as ++ bs)).1) :
    x ∉ (p.run as).1 := by
  rw [run_append, List.mem_append, not_or] at h
  exact h.1

theorem step_pause (hfree : p.producer = .free) (hst : p.session.stream = some st)
    (hphase : st.phase = .playing) :
    p.step (.command .pause) =
      ([.paused], p.resting st (Transport.stop p.session.transport st.handle)) := by
  rw [Playback.step, hfree]
  simp only [command, pause, Session.pause, hst, hphase]
  rfl

/-- The stream rests from the pause on. -/
theorem run_pause (hfree : p.producer = .free) (hst : p.session.stream = some st)
    (hphase : st.phase = .playing) (hidle : ∀ cmd ∈ cmds, cmd.isIdle p.session.settings = true)
    (hstill : .resumed .done ∉ (p.run ((.pause :: cmds).map .command)).1) :
    ∃ t es, (p.run ((.pause :: cmds).map .command)).2 = p.resting st t ∧
      es.length = cmds.countP (·.isResume) ∧
      t.log = p.session.transport.log ++ .stop st.handle :: refusedStarts st es := by
  rw [List.map_cons, run, step_pause hfree hst hphase, List.mem_append, not_or] at hstill
  obtain ⟨t, es, hrun, hcount, hlog⟩ := run_resting hfree hidle hstill.2
  refine ⟨t, es, ?_, hcount, ?_⟩
  · rw [List.map_cons, run, step_pause hfree hst hphase]
    exact hrun
  · rw [hlog, Logged.log_stop, List.append_assoc]
    rfl

/-- Each call of a pause finds the stream resting and changes nothing. -/
theorem moment_of_pause (hfree : p.producer = .free) (hst : p.session.stream = some st)
    (hphase : st.phase = .playing) (hidle : ∀ cmd ∈ cmds, cmd.isIdle p.session.settings = true)
    (hstill : .resumed .done ∉ (p.run ((.pause :: cmds).map .command)).1)
    {before after : List Command} {cmd : Command} (hsplit : cmds = before ++ cmd :: after) :
    let r := (p.run ((.pause :: before).map .command)).2
    (∃ t, r = p.resting st t) ∧ r.Idling cmd (r.step (.command cmd)) ∧
      r.Verdict cmd ((Conduct.perform r.lent cmd).run r.session.desk) := by
  subst hsplit
  have hcalls : (Command.pause :: (before ++ cmd :: after)).map Action.command =
      (Command.pause :: before).map .command ++ .command cmd :: after.map .command := by
    rw [← List.cons_append, List.map_append]
    rfl
  have hcmd := hidle cmd (List.mem_append_right _ List.mem_cons_self)
  rw [hcalls] at hstill
  obtain ⟨t, -, hrest, -, -⟩ := run_pause hfree hst hphase
    (fun c hc => hidle c (List.mem_append_left _ hc)) (not_mem_run_of_append hstill)
  rw [run_append, hrest] at hstill
  rw [hrest]
  refine ⟨⟨t, rfl⟩, idling (q := p.resting st t) hfree rfl rfl hcmd fun hmem => ?_,
    verdict_of_paused (q := p.resting st t) rfl rfl hcmd⟩
  exact hstill (List.mem_append_right _ (List.mem_append_left _ hmem))

/-- With every check on, the calls of a pause, its first and its last one included, do what they do
without. -/
theorem verdict_of_pause (hfree : p.producer = .free) (hst : p.session.stream = some st)
    (hphase : st.phase = .playing) (hidle : ∀ cmd ∈ cmds, cmd.isIdle p.session.settings = true)
    (hstill : .resumed .done ∉ (p.run ((.pause :: cmds).map .command)).1)
    {before after : List Command} {cmd : Command}
    (hsplit : .pause :: cmds ++ [.resume] = before ++ cmd :: after) :
    let r := (p.run (before.map .command)).2
    r.Verdict cmd ((Conduct.perform r.lent cmd).run r.session.desk) := by
  cases before with
  | nil =>
    cases hsplit
    exact .pause p
  | cons first before =>
    rw [List.cons_append, List.cons_append, List.cons.injEq] at hsplit
    obtain ⟨rfl, hsplit⟩ := hsplit
    -- the resume at the end, or a call before it
    rcases List.append_eq_append_iff.mp hsplit with ⟨as, -, hend⟩ | ⟨bs, hbefore, hend⟩
    · obtain ⟨-, hcons⟩ | ⟨as', rfl, hnil⟩ := List.cons_eq_append_iff.mp hend
      · cases hcons
        exact .resume _
      · cases as' <;> cases hnil
    · cases bs with
      | nil =>
        cases hend
        exact .resume _
      | cons b bs =>
        cases hend
        exact (moment_of_pause hfree hst hphase hidle hstill hbefore).2.2

-- A start that succeeds gives back the stream that was paused.
theorem step_resume {t : Logged τ} (hfree : p.producer = .free)
    (hst : p.session.stream = some st) (hphase : st.phase = .playing)
    (hdone : ((p.resting st t).step (.command .resume)).1 = [.resumed .done]) :
    ∃ t', ((p.resting st t).step (.command .resume)).2 =
        { p with session := { p.session with transport := t' } } ∧
      t'.log = t.log ++
        [.start st.handle st.format.frameRate st.format.layout.isStereo (.ok ())] := by
  have hstep : (p.resting st t).step (.command .resume) = (p.resting st t).resume := by
    rw [Playback.step, show (p.resting st t).producer = .free from hfree]
    rfl
  have hsame : { st with phase := .playing } = st := by rw [← hphase]
  rw [hstep] at hdone ⊢
  rcases hstart : Transport.start t st.handle st.format.frameRate st.format.layout.isStereo
    with ⟨e | u, t'⟩
  · rw [Stream.format] at hstart
    simp [resume, Session.resume, resting, Stream.format, hstart] at hdone
  · refine ⟨t', ?_, Logged.log_start hstart⟩
    rw [Stream.format] at hstart
    simp [resume, Session.resume, resting, Stream.format, hstart, Session.setStream, hsame, ← hst]

/-! ## 3. What a device and a commit find afterwards -/

omit [Transport τ]

section

variable {p : Playback τ}

theorem sameBytes_setFeed (hst : p.session.stream = some st) {k : Nat} {f f' : Feed}
    (hfeed : p.feed? k = some f) (hsame : f.SameBytes f') :
    ∃ g, (p.setFeed k f').session.stream = some { st with feed := g } ∧ st.feed.SameBytes g := by
  rw [stream_setFeed, hst, Option.map_some]
  by_cases hk : st.number = k
  · subst hk
    rw [feed?_of_open hst] at hfeed
    cases hfeed
    exact ⟨f', by rw [if_pos rfl], hsame⟩
  · exact ⟨st.feed, by rw [if_neg hk], rfl, rfl, rfl, rfl⟩

theorem Consumption.bytes {k : Nat} {c : ConsumerStep} {r : ConsumerReply × Playback τ}
    (h : p.Consumption k c r) (hst : p.session.stream = some st) :
    ∃ g, r.2.session.stream = some { st with feed := g } ∧ st.feed.SameBytes g := by
  cases h with
  | nothing | peeked | faulted => exact ⟨st.feed, hst, rfl, rfl, rfl, rfl⟩
  | pulled n f f' hfeed hdrop =>
    exact sameBytes_setFeed hst hfeed ((f.sameBytes_pull n).trans (Feed.sameBytes_drop hdrop))
  | held n name f hname hfeed => exact sameBytes_setFeed hst hfeed (f.sameBytes_pull n)
  | dropped name l f f' hname hfeed hdrop =>
    exact sameBytes_setFeed hst hfeed (Feed.sameBytes_drop hdrop)

/-- The next pull gets the slot that waits. -/
theorem consume_of_ready (hst : p.session.stream = some st) (htidy : st.feed.handshake.Tidy)
    (hroom : st.feed.bufferBytes ≠ 0) {s : Slot} (hready : st.feed.handshake.state s = .ready)
    {n : Nat} (hn : n ≠ 0) :
    (p.consume st.number (.pull n)).1 =
      .audio ((st.feed.content s).first (st.feed.grant n)) (st.feed.grant n) false := by
  have hgrant : st.feed.grant n ≠ 0 := by
    unfold Feed.grant
    omega
  obtain ⟨f', hdrop⟩ := st.feed.drop_pull_ok n
  rw [consume_pull (feed?_of_open hst) hdrop]
  have hpull := st.feed.pulled n
  generalize st.feed.pull n = r at hpull
  cases hpull with
  | nothing hzero => exact absurd hzero hgrant
  | delivered t _ _ hready' =>
    obtain rfl := htidy.ready_unique hready hready'
    simp [Feed.view, Feed.read, Feed.content, Feed.setHandshake, Pull.isUnderrun, hgrant]
  | replayed _ hnone => exact absurd hready (hnone s (htidy.ready_mem hready))
  | silent _ hnone => exact absurd hready (hnone s (htidy.ready_mem hready))

end

section

variable [Transport τ] {p : Playback τ}

theorem bytes_devices (hst : p.session.stream = some st) (ds : List (Nat × ConsumerStep)) :
    ∃ g, (p.run (devices ds)).2.session.stream = some { st with feed := g } ∧
      st.feed.SameBytes g := by
  induction ds generalizing p st with
  | nil => exact ⟨st.feed, hst, rfl, rfl, rfl, rfl⟩
  | cons d ds ih =>
    obtain ⟨g, hst', hsame⟩ := (p.consumption d.1 d.2).bytes hst
    obtain ⟨g', hst'', hsame'⟩ := ih hst'
    exact ⟨g', hst'', hsame.trans hsame'⟩

/-- A commit gives the buffer its final content when it is entered, and not again when it is
finished, however long devices make it wait. -/
theorem commit_outgoing (hfree : p.producer = .free) (hst : p.session.stream = some st)
    (hphase : st.phase = .playing) (hsturdy : st.Sturdy) (htidy : st.feed.handshake.Tidy)
    (hfilling : st.feed.handshake.state st.feed.handshake.active = .filling)
    (ds : List (Nat × ConsumerStep)) (stalled : Bool) :
    let r := (p.afterEntering .commit ds).step (.finish stalled)
    ∃ st', r.2.session.stream = some st' ∧
      st'.feed.content st.feed.handshake.active = st.outgoing ∧
      (r.1 = [] ∧ st'.feed.handshake.state st.feed.handshake.active = .filling ∨
        r.1 = [.answered st.number .commit stalled .done] ∧
          st'.feed.handshake.state st.feed.handshake.active = .ready) := by
  let st' : Stream :=
    { st with feed := st.feed.setContent st.feed.handshake.active st.outgoing }
  let q : Playback τ :=
    { p with session := p.session.setStream st', producer := .waiting .commit }
  have henter : p.step (.command (.enter .commit)) = ([], q) := by
    rw [Playback.step, hfree]
    simp [command, enter, Session.enter, Session.enterCommit, hst, hphase, hfilling,
      hsturdy.widenActive_eq htidy.active_mem, st', q]
  have hcontent : st'.feed.content st.feed.handshake.active = st.outgoing := by
    rw [Feed.content_setContent, if_pos rfl]
  -- devices touch neither the bytes nor the slot that is being filled
  have hbeside := beside_devices q ds
  obtain ⟨g, hst'', hsame⟩ := bytes_devices (p := q) rfl ds
  obtain ⟨g', hg', htouched⟩ := hbeside.stream st' rfl
  obtain rfl : g = g' := by
    rw [hst''] at hg'
    cases hg'
    rfl
  have hstill := htouched.filling (s := st.feed.handshake.active) hfilling
  have hactive : g.handshake.active = st.feed.handshake.active := htouched.active
  rw [← hsame.content] at hcontent
  rw [show p.afterEntering .commit ds = (q.run (devices ds)).2 by rw [afterEntering, henter]]
  generalize (q.run (devices ds)).2 = w at hbeside hst''
  have hwait : w.producer = .waiting .commit := hbeside.producer
  rw [Playback.step, finish, hwait, hst'']
  have hend := Session.finishing hst'' .commit stalled
  dsimp only
  generalize w.session.finish .commit stalled = e at hend
  cases hend with
  | blocked _ hblocks => exact ⟨_, hst'', hcontent, .inl ⟨rfl, hstill⟩⟩
  | commit hblocks hfilling' hphase' =>
    refine ⟨_, rfl, ?_, .inr ⟨rfl, ?_⟩⟩
    · rw [Stream.feed_handedOver]
      exact hcontent
    · rw [Stream.feed_handedOver, Feed.handshake_setHandshake, Handshake.state_handed,
        if_pos hactive.symm]
  | start _ _ hopened => exact absurd (hphase.symm.trans hopened) (by decide)
  | refuse _ _ hopened => exact absurd (hphase.symm.trans hopened) (by decide)
  | notFilling hnot => exact absurd (hactive ▸ hstill) hnot

end

/-! ## 4. Every pause -/

variable [Transport τ]

/-- From every reachable moment at which a stream plays and no call is under way: the producer
pauses it, then makes any idle calls of which none starts it again, and then resumes it with
success.  Any transport may answer the starts in any way.

* Afterwards everything is as it was, but for the transport, which has heard of one stop and of the
  starts.
* In between the playback rests, and every call is a refusal or nothing at all, commits and calls
  for everything to be played included.
* With every check on, each of these calls does what it does here, and only what the contract
  forbids breaks off, with nothing changed.
* A slot that waited is what the next pull gets, with its bytes.
* A buffer that was being filled still is, and mono samples in it are duplicated once, by the
  commit that hands it over, whatever devices do while it waits. -/
theorem pausing_is_transparent (t : τ) (c : Settings) (ms : List Move) (st : Stream)
    (cmds : List Command) :
    let p := ((new (Logged.new t) c).play ms).2
    p.producer = .free → p.session.stream = some st → st.phase = .playing →
    (∀ cmd ∈ cmds, cmd.isIdle p.session.settings = true) →
    .resumed .done ∉ (p.run ((.pause :: cmds).map .command)).1 →
    ((p.run ((.pause :: cmds).map .command)).2.step (.command .resume)).1 = [.resumed .done] →
    let calls := .pause :: cmds ++ [.resume]
    let q := (p.run (calls.map .command)).2
    let h := st.feed.handshake
    q = { p with session := { p.session with transport := q.session.transport } } ∧
    (∃ es, es.length = cmds.countP (·.isResume) ∧ q.session.transport.log =
      p.session.transport.log ++ .stop st.handle :: refusedStarts st es ++
        [.start st.handle st.format.frameRate st.format.layout.isStereo (.ok ())]) ∧
    (∀ before cmd after, cmds = before ++ cmd :: after →
      let r := (p.run ((.pause :: before).map .command)).2
      (∃ x, r = p.resting st x) ∧ r.Idling cmd (r.step (.command cmd))) ∧
    (∀ before cmd after, calls = before ++ cmd :: after →
      let r := (p.run (before.map .command)).2
      r.Verdict cmd ((Conduct.perform r.lent cmd).run r.session.desk)) ∧
    (∀ s n, h.state s = .ready → n ≠ 0 → (q.consume st.number (.pull n)).1 =
      .audio ((st.feed.content s).first (st.feed.grant n)) (st.feed.grant n) false) ∧
    (h.state h.active = .filling → ∀ ds stalled,
      let r := (q.afterEntering .commit ds).step (.finish stalled)
      ∃ st', r.2.session.stream = some st' ∧ st'.feed.content h.active = st.outgoing ∧
        (r.1 = [] ∧ st'.feed.handshake.state h.active = .filling ∨
          r.1 = [.answered st.number .commit stalled .done] ∧
            st'.feed.handshake.state h.active = .ready)) := by
  intro p hfree hst hphase hidle hstill hdone calls q h
  have hs : Settled ((new (Logged.new t) c).play ms).1 p := (settled_new (Logged.new t) c).play ms
  have hsturdy : st.Sturdy :=
    ((intact_new (Logged.new t) c).play (settled_new (Logged.new t) c) ms).sturdy st hst
  have htidy := hs.tidy st hst
  obtain ⟨x, es, hrest, hcount, hlog⟩ := run_pause hfree hst hphase hidle hstill
  rw [hrest] at hdone
  obtain ⟨x', hresume, hlog'⟩ := step_resume hfree hst hphase hdone
  have hq : q = { p with session := { p.session with transport := x' } } := by
    rw [← hresume, ← hrest]
    show (p.run ((Command.pause :: cmds ++ [Command.resume]).map .command)).2 = _
    rw [List.map_append, run_append]
    rfl
  have hqst : q.session.stream = some st := by rw [hq, ← hst]
  refine ⟨?_, ⟨es, hcount, ?_⟩, fun before cmd after hsplit => ?_, fun before cmd after hsplit => ?_,
    fun s n hready hn => ?_, fun hfilling ds stalled => ?_⟩
  · rw [hq]
  · rw [hq, hlog', hlog]
  · obtain ⟨hresting, hidling, -⟩ := moment_of_pause hfree hst hphase hidle hstill hsplit
    exact ⟨hresting, hidling⟩
  · exact verdict_of_pause hfree hst hphase hidle hstill hsplit
  · exact consume_of_ready hqst htidy hsturdy.room hready hn
  · have hqfree : q.producer = .free := by
      rw [hq]
      exact hfree
    exact commit_outgoing hqfree hqst hphase hsturdy htidy hfilling ds stalled

/-- A pause with one buffer handed over and the other one half filled, of mono that the device plays
in stereo. -/
theorem pausing_is_transparent_of_half_filled :
    let device : Hardware.Manual := ⟨{ pcm8 := some ⟨.stereo, .any⟩ }, 0, true⟩
    let hardware : Hardware := .new (.manual device) .none
    let settings : Settings := { Settings.standard with frameCount := 2 }
    let opening : Command := .openStream Allocator.machine ⟨.pcm8, .mono, 8000⟩
    let borrowing : List Move := [.act (.command (.enter .borrow)), .act (.finish false)]
    let moves : List Move := .act (.command opening) :: borrowing ++
      [.act (.command (.write [.ramp 1])), .act (.command (.enter .commit)), .act (.finish false)] ++
      borrowing ++ [.act (.command (.write [.ramp 5]))]
    let p := ((new (Logged.new hardware) settings).play moves).2
    let cmds : List Command :=
      [.enter .commit, .enter .borrow, opening, .pause, .enter .drain, .configure settings]
    let calls : List Command := .pause :: cmds ++ [.resume]
    let q := (p.run (calls.map .command)).2
    (q.consume 0 (.pull 9)).1 = .audio #[1, 1, 2, 2] 4 false ∧
      ∃ st', ((q.afterEntering .commit [(0, .pull 9)]).step (.finish false)).2.session.stream =
        some st' ∧ st'.feed.content .b = #[5, 5, 6, 6] := by
  intro device hardware settings opening borrowing moves p cmds calls q
  have hopen : p.session.stream.isSome = true := by decide +kernel
  obtain ⟨st, hst⟩ := Option.isSome_iff_exists.mp hopen
  have hread : ∀ {α : Type} (f : Stream → α) {v : α},
      p.session.stream.map f = some v → f st = v := by
    intro α f v h
    rw [hst] at h
    exact Option.some.inj h
  have hphase : st.phase = .playing := hread (·.phase) (by decide +kernel)
  have hnumber : st.number = 0 := hread (·.number) (by decide +kernel)
  have hactive : st.feed.handshake.active = .b := hread (·.feed.handshake.active) (by decide +kernel)
  have hready : st.feed.handshake.state .a = .ready :=
    hread (·.feed.handshake.state .a) (by decide +kernel)
  have hfilling : st.feed.handshake.state .b = .filling :=
    hread (·.feed.handshake.state .b) (by decide +kernel)
  have hcontent : st.feed.content .a = #[1, 1, 2, 2] :=
    hread (·.feed.content .a) (by decide +kernel)
  have houtgoing : st.outgoing = #[5, 5, 6, 6] := hread (·.outgoing) (by decide +kernel)
  have hgrant : st.feed.grant 9 = 4 := hread (·.feed.grant 9) (by decide +kernel)
  have hidle : ∀ cmd ∈ cmds, cmd.isIdle p.session.settings = true := by decide +kernel
  have hstill : .resumed .done ∉ (p.run ((.pause :: cmds).map .command)).1 := by decide +kernel
  have hdone : ((p.run ((.pause :: cmds).map .command)).2.step (.command .resume)).1 =
      [.resumed .done] := by
    decide +kernel
  have hfree : p.producer = .free := by decide +kernel
  obtain ⟨-, -, -, -, hpull, hcommit⟩ :=
    pausing_is_transparent hardware settings moves st cmds hfree hst hphase hidle hstill hdone
  refine ⟨?_, ?_⟩
  · have hwaiting := hpull .a 9 hready (by decide)
    rw [hnumber, hcontent, hgrant] at hwaiting
    exact hwaiting
  · obtain ⟨st', hst', hbytes, -⟩ := hcommit (by rw [hactive, hfilling]) [(0, .pull 9)] false
    rw [hactive, houtgoing] at hbytes
    exact ⟨st', hst', hbytes⟩

end Playback

end Playout

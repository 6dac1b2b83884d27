import Playout.Proofs.Conduct
import Playout.Proofs.Guarded

/-!
# Misuse

The contract forbids some calls in some states.  Such a call breaks off before it has changed
anything, and no other call ever breaks off: the checks of the library on itself hold in every
state that a run can reach, whatever devices do while a call waits.
-/

namespace Playout

/-! ## 1. What the contract forbids -/

/-- What must not be called now. -/
def Desk.Forbids {τ : Type} (d : Desk τ) : Command → Prop
  | .openStream _ _ => d.state ≠ .closed
  | .enter .borrow => d.state = .closed ∨ d.state = .paused
  | .enter .commit => d.state = .closed ∨
      ((d.state = .opened ∨ d.state = .playing) ∧ ∃ st, d.session.stream = some st ∧
        st.feed.handshake.state st.feed.handshake.active ≠ .filling)
  | .enter .drain => d.state = .closed
  | .pause | .resume => d.state = .closed ∨ d.state = .opened
  | .write _ | .close | .configure _ => False

namespace Playback

open Conduct

variable {τ : Type} [Transport τ] {tr es : List Event} {p p' : Playback τ} {st : Stream}

omit [Transport τ] in
theorem Guarded.solid (hg : Guarded tr p) (hst : p.session.stream = some st) :
    Conduct.Solid st := by
  have hline := hg.sound.open_line hst
  have hsize : (st.feed.content st.feed.handshake.active).size = st.feed.bufferBytes :=
    hline.sized.content_active hline.orderly
  refine ⟨hline.orderly.shaped.active_mem, ?_⟩
  rw [hsize]
  exact hg.small _ _ (feed?_of_open hst)

/-- The ends of a call of a free producer. -/
inductive Verdict (p : Playback τ) (cmd : Command) :
    EStateM.Result Panic (Desk τ) Unit → Prop where
  | refused (v : Violation) (hforbids : p.session.desk.Forbids cmd)
      (hstep : p.command cmd = ([.fault (.contract v)], p)) :
      Verdict p cmd (.error (.fault (.contract v)) p.session.desk)
  | done (es : List Event) (q : Playback τ) (hallows : ¬ p.session.desk.Forbids cmd)
      (hstep : p.command cmd = (es, q)) (hquiet : ∀ f, .fault f ∉ es) :
      Verdict p cmd (.ok () q.session.desk)

namespace Verdict

theorem openStream (p : Playback τ) (mem : Allocator) (requested : Format) :
    p.Verdict (.openStream mem requested)
      ((perform p.lent (.openStream mem requested)).run p.session.desk) := by
  rw [perform, run_forget, run_openStream]
  cases hst : p.session.stream with
  | some st =>
    rw [Session.openStream_of_open hst]
    refine .refused _ ?_ ?_
    · cases hphase : st.phase <;>
        simp [Desk.Forbids, Session.desk, Session.state, hst, hphase, Phase.state]
    · simp only [command, Playback.openStream, Session.openStream_of_open hst]
      rfl
  | none =>
    obtain ⟨⟨r, s⟩, hr, -⟩ := Session.openStream_of_closed hst mem requested
    have hallows : ¬ p.session.desk.Forbids (.openStream mem requested) := fun hforbids =>
      hforbids (by simp [Session.desk, Session.state, hst])
    rw [hr]
    cases r with
    | error e =>
      refine .done [.notOpened e] { p with session := s } hallows ?_ (by simp)
      simp only [command, Playback.openStream, hr]
    | ok f =>
      refine .done [.opened p.session.opens f (s.stream.any (·.widens))] { p with session := s }
        hallows ?_ (by simp)
      simp only [command, Playback.openStream, hr]

theorem enter_refused (hg : Guarded tr p) {c : Call} {v : Violation}
    (h : p.session.enter c = .error (.contract v))
    (hforbids : p.session.desk.Forbids (.enter c)) :
    p.Verdict (.enter c) ((perform p.lent (.enter c)).run p.session.desk) := by
  rw [perform, run_forget, run_enter fun _ => hg.solid, h]
  exact .refused v hforbids (by simp only [command, Playback.enter, h])

theorem enter_pending (hg : Guarded tr p) {c : Call} {s : Session τ}
    (h : p.session.enter c = .ok (.pending s))
    (hallows : ¬ p.session.desk.Forbids (.enter c)) :
    p.Verdict (.enter c) ((perform p.lent (.enter c)).run p.session.desk) := by
  rw [perform, run_forget, run_enter fun _ => hg.solid, h]
  refine .done [] { p with session := s, producer := .waiting c } hallows ?_ (by simp)
  simp only [command, Playback.enter, h]

theorem enter_returned (hg : Guarded tr p) {c : Call} {s : Session τ}
    (h : p.session.enter c = .ok (.returned s))
    (hallows : ¬ p.session.desk.Forbids (.enter c)) :
    p.Verdict (.enter c) ((perform p.lent (.enter c)).run p.session.desk) := by
  rw [perform, run_forget, run_enter fun _ => hg.solid, h]
  refine .done [.skipped c] { p with session := s } hallows ?_ (by simp)
  simp only [command, Playback.enter, h]

-- A commit on a stream that is not paused.
theorem enter_commit (hg : Guarded tr p) (hst : p.session.stream = some st)
    (hphase : st.phase ≠ .paused) :
    p.Verdict (.enter .commit) ((perform p.lent (.enter .commit)).run p.session.desk) := by
  have hstate : p.session.state = .opened ∨ p.session.state = .playing := by
    rw [Session.state, hst]
    cases hp : st.phase with
    | opened => exact .inl (by simp [hp, Phase.state])
    | playing => exact .inr (by simp [hp, Phase.state])
    | paused => exact absurd hp hphase
  have henter : p.session.enter .commit = p.session.enterCommit st := by
    simp only [Session.enter, hst]
    split
    next hp => exact absurd hp hphase
    next => rfl
    next => rfl
  by_cases hfilling : st.feed.handshake.state st.feed.handshake.active = .filling
  · obtain ⟨st', hwiden⟩ : ∃ st', st.widenActive = .ok st' := ⟨_, hg.sound.widenActive_eq hst⟩
    refine enter_pending hg (s := p.session.setStream st') (henter.trans ?_) ?_
    · simp only [Session.enterCommit, hfilling, ne_eq, not_true_eq_false, if_false, hwiden]
    · rcases hstate with h | h <;> simp [Desk.Forbids, Session.desk, h, hst, hfilling]
  · have hrefused : p.session.enter .commit = .error (.contract (.notFilled
        st.feed.handshake.active (st.feed.handshake.state st.feed.handshake.active))) := by
      rw [henter]
      simp only [Session.enterCommit, hfilling, ne_eq, not_false_eq_true, if_true]
    refine enter_refused hg hrefused ?_
    rcases hstate with h | h <;> simp [Desk.Forbids, Session.desk, h, hst, hfilling]

theorem enter (hg : Guarded tr p) (c : Call) :
    p.Verdict (.enter c) ((perform p.lent (.enter c)).run p.session.desk) := by
  cases hst : p.session.stream with
  | none =>
    have hstate : p.session.state = .closed := by rw [Session.state, hst]
    cases c with
    | borrow =>
      exact enter_refused hg (by simp only [Session.enter, hstate]; rfl)
        (by simp [Desk.Forbids, Session.desk, hstate])
    | commit =>
      exact enter_refused hg (by simp only [Session.enter, hst]; rfl)
        (by simp [Desk.Forbids, Session.desk, hstate])
    | drain =>
      exact enter_refused hg (by simp only [Session.enter, hstate]; rfl)
        (by simp [Desk.Forbids, Session.desk, hstate])
  | some st =>
    have hstate : p.session.state = st.phase.state := by rw [Session.state, hst]
    cases hphase : st.phase with
    | opened | playing =>
      rw [hphase, Phase.state] at hstate
      cases c with
      | borrow =>
        exact enter_pending hg (by simp only [Session.enter, hstate]; rfl)
          (by simp [Desk.Forbids, Session.desk, hstate])
      | commit => exact enter_commit hg hst (by simp [hphase])
      | drain =>
        exact enter_pending hg (by simp only [Session.enter, hstate]; rfl)
          (by simp [Desk.Forbids, Session.desk, hstate])
    | paused =>
      rw [hphase, Phase.state] at hstate
      cases c with
      | borrow =>
        exact enter_refused hg (by simp only [Session.enter, hstate]; rfl)
          (by simp [Desk.Forbids, Session.desk, hstate])
      | commit =>
        exact enter_returned hg (by simp only [Session.enter, hst, hphase]; rfl)
          (by simp [Desk.Forbids, Session.desk, hstate])
      | drain =>
        exact enter_returned hg (by simp only [Session.enter, hstate]; rfl)
          (by simp [Desk.Forbids, Session.desk, hstate])

theorem write (p : Playback τ) (edits : List Edit) :
    p.Verdict (.write edits) ((perform p.lent (.write edits)).run p.session.desk) := by
  have hidle : p.command (.write edits) = ([], p) →
      (perform p.lent (.write edits)).run p.session.desk = .ok () p.session.desk →
      p.Verdict (.write edits) ((perform p.lent (.write edits)).run p.session.desk) := by
    intro hstep hrun
    rw [hrun]
    exact .done [] p id hstep (by simp)
  cases hst : p.session.stream with
  | none =>
    apply hidle
    · simp only [command, Playback.write, hst]
    · simp [perform, Conduct.write, Session.desk, hst]
  | some st =>
    cases hlent : p.lent with
    | none =>
      rw [← hlent]
      apply hidle
      · simp only [command, Playback.write, hst, hlent]
      · simp [-bind_pure_comp, perform, Conduct.write, Session.desk, hlent]
    | some slot =>
      rw [perform, run_write hst]
      refine .done [.wrote st.number edits] { p with session := p.session.write edits } id ?_
        (by simp)
      simp only [command, Playback.write, hst, hlent]

theorem pause_refused (h : p.session.pause = .error (p.session.wrongState .pause))
    (hforbids : p.session.desk.Forbids .pause) :
    p.Verdict .pause ((perform p.lent .pause).run p.session.desk) := by
  rw [perform, run_pause, h]
  exact .refused _ hforbids (by simp only [command, Playback.pause, h]; rfl)

theorem pause (p : Playback τ) :
    p.Verdict .pause ((perform p.lent .pause).run p.session.desk) := by
  cases hst : p.session.stream with
  | none =>
    exact pause_refused (by simp only [Session.pause, hst])
      (by simp [Desk.Forbids, Session.desk, Session.state, hst])
  | some st =>
    have hstate : p.session.state = st.phase.state := by rw [Session.state, hst]
    cases hphase : st.phase with
    | opened =>
      exact pause_refused (by simp only [Session.pause, hst, hphase])
        (by simp [Desk.Forbids, Session.desk, hstate, hphase, Phase.state])
    | playing | paused =>
      obtain ⟨s, h⟩ : ∃ s, p.session.pause = .ok s := by simp [Session.pause, hst, hphase]
      rw [perform, run_pause, h]
      refine .done [.paused] { p with session := s } ?_ ?_ (by simp)
      · simp [Desk.Forbids, Session.desk, hstate, hphase, Phase.state]
      · simp only [command, Playback.pause, h]

theorem resume_refused (h : p.session.resume = .error (p.session.wrongState .resume))
    (hforbids : p.session.desk.Forbids .resume) :
    p.Verdict .resume ((perform p.lent .resume).run p.session.desk) := by
  rw [perform, run_forget, run_resume, h]
  exact .refused _ hforbids (by simp only [command, Playback.resume, h]; rfl)

theorem resume_done {a : Answer} {s : Session τ} (h : p.session.resume = .ok (a, s))
    (hallows : ¬ p.session.desk.Forbids .resume) :
    p.Verdict .resume ((perform p.lent .resume).run p.session.desk) := by
  rw [perform, run_forget, run_resume, h]
  refine .done [.resumed a] { p with session := s } hallows ?_ (by simp)
  simp only [command, Playback.resume, h]

theorem resume (p : Playback τ) :
    p.Verdict .resume ((perform p.lent .resume).run p.session.desk) := by
  cases hst : p.session.stream with
  | none =>
    exact resume_refused (by simp only [Session.resume, hst])
      (by simp [Desk.Forbids, Session.desk, Session.state, hst])
  | some st =>
    have hstate : p.session.state = st.phase.state := by rw [Session.state, hst]
    cases hphase : st.phase with
    | opened =>
      exact resume_refused (by simp only [Session.resume, hst, hphase])
        (by simp [Desk.Forbids, Session.desk, hstate, hphase, Phase.state])
    | playing =>
      have h : p.session.resume = .ok (.done, p.session) := by
        simp only [Session.resume, hst, hphase]
      exact resume_done h (by simp [Desk.Forbids, Session.desk, hstate, hphase, Phase.state])
    | paused =>
      obtain ⟨⟨a, s⟩, h⟩ : ∃ r, p.session.resume = .ok r := by
        simp only [Session.resume, hst, hphase]
        split <;> exact ⟨_, rfl⟩
      exact resume_done h (by simp [Desk.Forbids, Session.desk, hstate, hphase, Phase.state])

theorem close (p : Playback τ) :
    p.Verdict .close ((perform p.lent .close).run p.session.desk) := by
  rw [perform, run_close]
  cases hst : p.session.stream with
  | none =>
    refine .done [.closed] { p with session := p.session.close } id ?_ (by simp)
    simp only [command, Playback.close, hst]
  | some st =>
    refine .done [.closed]
      { p.keep st.number st.feed with session := p.session.close, lent := none } id ?_ (by simp)
    simp only [command, Playback.close, hst]

end Verdict

/-- A free producer that calls something the contract forbids gets to know of it, and nothing has
changed; whatever else it calls is done. -/
theorem Guarded.verdict (hg : Guarded tr p) (cmd : Command) :
    p.Verdict cmd ((perform p.lent cmd).run p.session.desk) := by
  cases cmd with
  | openStream mem requested => exact .openStream p mem requested
  | enter c => exact .enter hg c
  | write edits => exact .write p edits
  | pause => exact .pause p
  | resume => exact .resume p
  | close => exact .close p
  | configure settings =>
    exact .done [] { p with session := p.session.configure settings } id rfl (by simp)

/-! ## 3. While a call waits -/

/-- Steps of devices, each with the feed of new pulls. -/
def devices (ds : List (Nat × ConsumerStep)) : List Action := ds.map fun d => .device d.1 d.2

/-- What devices leave of a playback. -/
structure Beside (p q : Playback τ) : Prop where
  producer : q.producer = p.producer
  stream : ∀ st, p.session.stream = some st →
    ∃ f, q.session.stream = some { st with feed := f } ∧ st.feed.handshake.Touched f.handshake

variable {q : Playback τ}

theorem beside_devices (p : Playback τ) (ds : List (Nat × ConsumerStep)) :
    p.Beside (p.run (devices ds)).2 := by
  induction ds generalizing p with
  | nil => exact ⟨rfl, fun st hst => ⟨st.feed, hst, .rest⟩⟩
  | cons d ds ih =>
    have hend := p.consumption d.1 d.2
    have hrest := ih (p.consume d.1 d.2).2
    refine ⟨hrest.producer.trans hend.producer, fun st hst => ?_⟩
    obtain ⟨f, hst', htouched⟩ := hend.stream hst
    obtain ⟨g, hst'', htouched'⟩ := hrest.stream _ hst'
    exact ⟨g, hst'', htouched.trans htouched'⟩

omit [Transport τ] in
-- Its local variables are still right.
theorem Beside.frame (h : p.Beside q) {c : Call} {f : Frame}
    (hf : Conduct.frame p.session c = some f) : Conduct.frame q.session c = some f := by
  obtain ⟨st, hst, rfl⟩ := Option.map_eq_some_iff.mp hf
  obtain ⟨feed, hst', htouched⟩ := h.stream st hst
  simp [Conduct.frame, Session.state, hst, hst', htouched.active]

theorem stallCount_devices (p : Playback τ) (ds : List (Nat × ConsumerStep)) :
    stallCount (p.run (devices ds)).1 = 0 := by
  induction ds generalizing p with
  | nil => rfl
  | cons d ds ih =>
    have hrest := ih (p.consume d.1 d.2).2
    exact (stallCount_append _ _).trans (by rw [← hrest]; exact Nat.zero_add _)

theorem Sound.finish_ok (hs : Sound tr p) {c : Call} (hwait : p.producer = .waiting c)
    (hst : p.session.stream = some st) (stalled : Bool) :
    ∃ r, p.session.finish c stalled = .ok r := by
  have hend := Session.finishing hst c stalled
  generalize p.session.finish c stalled = r at hend
  cases hend with
  | blocked | borrow | commit | start | refuse | drain => exact ⟨_, rfl⟩
  | tooSmall hsize =>
    -- all buffers have the size of silence
    have hline := hs.open_line hst
    have hcontent := hline.sized.content_active hline.orderly
    have hbytes := st.producerBytes_le
    replace hcontent : (st.feed.content st.feed.handshake.active).size = st.feed.bufferBytes :=
      hcontent
    omega
  | notFilling hfilling =>
    exact absurd ((hs.sealed_line hst hwait).orderly.sealed_filling rfl) hfilling

theorem Sound.finish_quiet (hs : Sound tr p) (stalled : Bool) (e : Fault) :
    .fault e ∉ (p.step (.finish stalled)).1 := by
  rw [Playback.step, Playback.finish]
  split
  next c st hwait hst =>
    obtain ⟨r, hr⟩ := hs.finish_ok hwait hst stalled
    cases r <;> simp [hr]
  next => simp

/-- A call that waits is finished, or goes on waiting. -/
theorem Guarded.run_finish (hg : Guarded tr p) {c : Call}
    (hwait : p.producer = .waiting c) {f : Frame} (hf : Conduct.frame p.session c = some f)
    {stalled : Bool} (hroom : stallCount tr + stalled.toNat < wordLimit) :
    ∃ a, (Conduct.finish f stalled).run p.session.desk =
      .ok a (p.step (.finish stalled)).2.session.desk := by
  obtain ⟨st, hst, rfl⟩ := Option.map_eq_some_iff.mp hf
  have hroom := hg.counted.room (by rw [hwait]; rfl) hst hroom
  obtain ⟨r, hr⟩ := hg.sound.finish_ok hwait hst stalled
  rw [Conduct.run_finish hst (hg.solid hst) hroom hr, Playback.step, Playback.finish, hwait, hst]
  simp only [hr]
  cases r with
  | none => exact ⟨none, rfl⟩
  | some r => exact ⟨some r.1, rfl⟩

/-- Before the transport starts the first buffer is handed over. -/
theorem Guarded.run_handOver (hg : Guarded tr p) {c : Call}
    (hwait : p.producer = .waiting c) {f : Frame} (hf : Conduct.frame p.session c = some f)
    {stalled : Bool} (hroom : stallCount tr + stalled.toNat < wordLimit)
    (hlaunch : (p.step (.handOver stalled)).2.producer = .launching stalled) :
    f.state = .opened ∧ (Conduct.handOver f.slot stalled).run p.session.desk =
      .ok () (p.step (.handOver stalled)).2.session.desk := by
  obtain ⟨st, hst, rfl⟩ := Option.map_eq_some_iff.mp hf
  have hroom := hg.counted.room (by rw [hwait]; rfl) hst hroom
  obtain rfl : c = .commit := by
    cases c with
    | commit => rfl
    | borrow | drain =>
      rw [Playback.step, Playback.handOver, hwait] at hlaunch
      simp [hwait] at hlaunch
  have hfilling := (hg.sound.sealed_line hst hwait).orderly.sealed_filling rfl
  replace hfilling : st.feed.handshake.state st.feed.handshake.active = .filling := hfilling
  rw [Conduct.run_handOver hst hroom hfilling]
  rw [Playback.step, Playback.handOver, hwait, hst] at hlaunch ⊢
  simp only [Feed.handOver_of_filling hfilling] at hlaunch ⊢
  split at hlaunch
  next slot feed hphase hblocks hhand =>
    cases hhand
    exact ⟨by simp [Session.state, hst, hphase, Phase.state], rfl⟩
  next => simp [hwait] at hlaunch

theorem Sound.run_launch (hs : Sound tr p) {stalled : Bool}
    (hlaunch : p.producer = .launching stalled) :
    ∃ a d, Conduct.launch.run p.session.desk = .ok a d ∧
      (a = .done → d = (p.step .launch).2.session.desk) := by
  obtain ⟨st, hst, -⟩ := hs.busy (by rw [hlaunch]; nofun)
  refine ⟨_, _, Conduct.run_launch hst, fun hdone => ?_⟩
  rw [Playback.step, Playback.launch, hlaunch, hst]
  rcases hstart : p.session.startFirst st with ⟨a, s⟩
  rw [hstart] at hdone
  cases hdone
  simp [hstart]

/-! ## 4. What devices read -/

end Playback

-- A pull of a claimed slot, or of silence, gets as many bytes as were granted.
theorem Line.Inv.size_read {x : Line} (hx : x.Inv) {q : Pull} (hlen : q.length ≤ x.feed.bufferBytes)
    (hclaimed : ∀ s, q.claimed = some s → 0 < x.claims s) :
    (x.feed.read q).size = q.length := by
  unfold Feed.read
  split
  next s hs =>
    have hpos := hclaimed s hs
    -- a slot with a reader is being read, so it takes part
    have hne : x.feed.handshake.state s ≠ .empty := by
      intro hempty
      rw [hx.orderly.unclaimed (by rw [hempty]; decide)] at hpos
      omega
    have hsize := hx.sized.content s (hx.orderly.shaped.mem_of_ne_empty hne)
    rw [Bytes.size_first, hsize]
    omega
  next =>
    rw [Bytes.size_first]
    exact Nat.min_eq_left hlen

namespace Playback

variable {τ : Type} {tr es : List Event} {p p' : Playback τ}

-- A live pull gets all the bytes it was granted.
theorem Guarded.size_read (hg : Guarded tr p) {l : LivePull} (hl : l ∈ p.live) {f : Feed}
    (hfeed : p.feed? l.feed = some f) : (f.read l.pull).size = l.pull.length :=
  (hg.sound.lines l.feed f hfeed).size_read (hg.fitting l hl f hfeed) fun _ hs =>
    LivePulls.claims_pos hl hs

-- So does a new one.
theorem Sound.size_read_pull (hs : Sound tr p) {k : Nat} {f : Feed} (hfeed : p.feed? k = some f)
    (n : Nat) : ((f.pull n).2.read (f.pull n).1).size = (f.pull n).1.length := by
  have hline := (hs.lines k f hfeed).pull n
  refine hline.size_read ?_ fun s hs => ?_
  · show (f.pull n).1.length ≤ (f.pull n).2.bufferBytes
    rw [Feed.length_pull, (f.sameBytes_pull n).bufferBytes]
    exact f.grant_le n
  · show 0 < Line.claimOf _ (f.pull n).1.claimed s
    rw [hs]
    simp [Line.claimOf, Line.claim]

/-! ## 5. Every run -/

variable [Transport τ]

/-- The playback in which a call waits that has just been entered, after steps of devices. -/
def afterEntering (p : Playback τ) (c : Call) (ds : List (Nat × ConsumerStep)) : Playback τ :=
  ((p.step (.command (.enter c))).2.run (devices ds)).2

-- The verdict on a call, as an equivalence.
theorem Guarded.breaks_off (hg : Guarded tr p) (hfree : p.producer = .free) (cmd : Command) :
    ((∃ e d, (Conduct.perform p.lent cmd).run p.session.desk = .error e d) ↔
      p.session.desk.Forbids cmd) ∧
    (∀ e d, (Conduct.perform p.lent cmd).run p.session.desk = .error e d →
      d = p.session.desk ∧ ∃ v, e = .fault (.contract v) ∧
        p.step (.command cmd) = ([.fault (.contract v)], p)) ∧
    (∀ d, (Conduct.perform p.lent cmd).run p.session.desk = .ok () d →
      d = (p.step (.command cmd)).2.session.desk ∧
        ∀ f, .fault f ∉ (p.step (.command cmd)).1) := by
  have hv := hg.verdict cmd
  have hstep : p.step (.command cmd) = p.command cmd := by rw [Playback.step, hfree]
  rw [hstep]
  generalize (Conduct.perform p.lent cmd).run p.session.desk = r at hv
  cases hv with
  | refused v hforbids hsame =>
    refine ⟨⟨fun _ => hforbids, fun _ => ⟨_, _, rfl⟩⟩, fun e d h => ?_, fun d h => ?_⟩
    · cases h
      exact ⟨rfl, v, rfl, hsame⟩
    · cases h
  | done es q hallows hend hquiet =>
    rw [hend]
    refine ⟨⟨fun h => ?_, fun h => absurd h hallows⟩, fun e d h => ?_, fun d h => ?_⟩
    · obtain ⟨e, d, h⟩ := h
      cases h
    · cases h
    · cases h
      exact ⟨rfl, hquiet⟩

-- A call that has been entered, and devices beside it.
theorem Guarded.waits (hg : Guarded tr p) (hfree : p.producer = .free) {c : Call} {f : Frame}
    {d : Desk τ} (h : (Conduct.enter c).run p.session.desk = .ok (some f) d)
    (ds : List (Nat × ConsumerStep)) :
    (p.afterEntering c ds).producer = .waiting c ∧
    Conduct.frame (p.afterEntering c ds).session c = some f ∧
    ∃ tr', Guarded tr' (p.afterEntering c ds) ∧ stallCount tr' = stallCount tr := by
  obtain ⟨s, henter, hf⟩ := Conduct.enter_eq_ok (fun _ => hg.solid) h
  have hstep : p.step (.command (.enter c)) =
      ([], { p with session := s, producer := .waiting c }) := by
    rw [Playback.step, hfree]
    simp only [command, Playback.enter, henter]
  have hg' := (hg.step (.command (.enter c))).run (devices ds)
  have hbeside := beside_devices { p with session := s, producer := .waiting c } ds
  rw [afterEntering, hstep]
  rw [hstep, List.append_nil] at hg'
  refine ⟨hbeside.producer, hbeside.frame hf, _, hg', ?_⟩
  rw [stallCount_append, stallCount_devices, Nat.add_zero]

/-- After every run of any session over any transport, with every check switched on:

* a free producer's call breaks off exactly if the contract forbids it, and then with a violation of
  the contract that leaves everything as it was; otherwise the session is what the call makes of it,
  and no check has failed;
* a call that has been entered never breaks off, whatever devices do while it waits: it waits on or
  is finished, as long as there have been fewer stalls than a counter holds, and a first commit can
  be interrupted by devices between the hand-over and the start;
* neither does the start after such an interruption, nor the reading of the counters;
* no step of a device fails a check, and every pull lies within the buffer it is read from. -/
theorem misuse (t : τ) (c : Settings) (as : List Action) :
    let tr := ((new t c).run as).1
    let p := ((new t c).run as).2
    let d := p.session.desk
    (p.producer = .free → ∀ cmd,
      ((∃ e d', (Conduct.perform p.lent cmd).run d = .error e d') ↔ d.Forbids cmd) ∧
      (∀ e d', (Conduct.perform p.lent cmd).run d = .error e d' →
        d' = d ∧ ∃ v, e = .fault (.contract v) ∧
          p.step (.command cmd) = ([.fault (.contract v)], p)) ∧
      (∀ d', (Conduct.perform p.lent cmd).run d = .ok () d' →
        d' = (p.step (.command cmd)).2.session.desk ∧
          ∀ f, .fault f ∉ (p.step (.command cmd)).1)) ∧
    (p.producer = .free → ∀ call f d', (Conduct.enter call).run d = .ok (some f) d' → ∀ ds,
      let q := p.afterEntering call ds
      q.producer = .waiting call ∧
      ∀ stalled, stallCount tr + stalled.toNat < wordLimit →
        (∃ a, (Conduct.finish f stalled).run q.session.desk =
          .ok a (q.step (.finish stalled)).2.session.desk) ∧
        (∀ e, .fault e ∉ (q.step (.finish stalled)).1) ∧
        ((q.step (.handOver stalled)).2.producer = .launching stalled →
          f.state = .opened ∧ (Conduct.handOver f.slot stalled).run q.session.desk =
            .ok () (q.step (.handOver stalled)).2.session.desk)) ∧
    (∀ stalled, p.producer = .launching stalled → ∃ a d',
      Conduct.launch.run d = .ok a d' ∧ (a = .done → d' = (p.step .launch).2.session.desk)) ∧
    Conduct.reading.run d = .ok p.session.reading d ∧
    (∀ k c e, (p.consume k c).1 ≠ .fault e) ∧
    (∀ l ∈ p.live, ∀ f, p.feed? l.feed = some f → (f.read l.pull).size = l.pull.length) ∧
    (∀ k f n, p.feed? k = some f →
      ((f.pull n).2.read (f.pull n).1).size = (f.pull n).1.length) := by
  intro tr p d
  have hg : Guarded tr p := guarded_run t c as
  refine ⟨fun hfree cmd => ?_, fun hfree call f d' henter ds => ?_, ?_, ?_, ?_, ?_, ?_⟩
  · exact hg.breaks_off hfree cmd
  · obtain ⟨hwait, hf, tr', hg', hcount⟩ := hg.waits hfree henter ds
    refine ⟨hwait, fun stalled hroom => ?_⟩
    rw [← hcount] at hroom
    exact ⟨hg'.run_finish hwait hf hroom, hg'.sound.finish_quiet stalled,
      hg'.run_handOver hwait hf hroom⟩
  · intro stalled hlaunch
    exact hg.sound.run_launch hlaunch
  · exact Conduct.run_reading p.session
  · exact hg.sound.no_fault
  · intro l hl f hfeed
    exact hg.size_read hl hfeed
  · intro k f n hfeed
    exact hg.sound.size_read_pull hfeed n

/-- A second commit that waits until a device has pulled the first buffer, on a stream that must not
be opened again. -/
theorem misuse_of_two_commits :
    let device : Hardware.Manual := ⟨.linear, 0, true⟩
    let opening : Command := .openStream Allocator.machine ⟨.pcm8, .mono, 8000⟩
    let borrowing : List Action := [.command (.enter .borrow), .finish false]
    let p := ((new (Hardware.new (.manual device) .none)
        { Settings.standard with frameCount := 4 }).run
      (.command opening :: borrowing ++ [.command (.enter .commit), .finish false] ++ borrowing)).2
    let q := p.afterEntering .commit [(0, .pull 3)]
    (∃ e, (Conduct.perform p.lent opening).run p.session.desk = .error e p.session.desk) ∧
      ∃ a, (Conduct.finish ⟨.commit, .playing, .b⟩ true).run q.session.desk =
        .ok a (q.step (.finish true)).2.session.desk := by
  intro device opening borrowing p q
  obtain ⟨hfree, hwait, -⟩ := misuse (Hardware.new (.manual device) .none)
    { Settings.standard with frameCount := 4 }
    (.command opening :: borrowing ++ [.command (.enter .commit), .finish false] ++ borrowing)
  have hproducer : p.producer = .free := by decide +kernel
  have hstate : p.session.desk.state = .playing := by decide +kernel
  obtain ⟨hpanics, hsame, -⟩ := hfree hproducer opening
  obtain ⟨e, d', hbroken⟩ := hpanics.mpr (by rw [Desk.Forbids, show _ = _ from hstate]; decide)
  obtain ⟨rfl, -⟩ := hsame e d' hbroken
  have hframe : (match (Conduct.enter .commit).run p.session.desk with
      | .ok f _ => f
      | .error _ _ => none) = some ⟨.commit, .playing, .b⟩ := by
    decide +kernel
  rcases henter : (Conduct.enter .commit).run p.session.desk with ⟨f, d⟩ | ⟨e, d⟩
  · rw [henter] at hframe
    cases hframe
    have hdone := (hwait hproducer .commit _ d henter [(0, .pull 3)]).2 true (by decide +kernel)
    exact ⟨⟨e, hbroken⟩, hdone.1⟩
  · rw [henter] at hframe
    cases hframe

end Playback

end Playout

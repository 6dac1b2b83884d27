import Playout.Bench.Hardware
import Playout.Proofs.Attempts
import Playout.Proofs.Books
import Playout.Proofs.Epoch

/-!
# What an opening takes along

The settings and what the device plays are read when a stream is opened, and not again until the
next one is.  Here anybody changes both at any moment, also while a call waits, and a producer that
rests does so in the manner it was told when the stream was opened.  Nobody can tell from a stream,
or from the calls that its transport receives, that anything was changed.
-/

namespace Playout

/-! ## 1. Transports that change -/

/-- A device, and the table that its transport shows of what it plays. -/
structure Announcing (τ : Type) where
  device : τ
  table : Capabilities

instance {τ : Type} [Transport τ] : Transport (Announcing τ) where
  capabilities x := x.table
  create x bytes :=
    let (r, t) := Transport.create x.device bytes
    (r, { x with device := t })
  register x h feed :=
    let (r, t) := Transport.register x.device h feed
    (r, { x with device := t })
  setGain x h gain := { x with device := Transport.setGain x.device h gain }
  start x h rate stereo :=
    let (r, t) := Transport.start x.device h rate stereo
    (r, { x with device := t })
  stop x h := { x with device := Transport.stop x.device h }
  destroy x h := { x with device := Transport.destroy x.device h }

variable {τ : Type} {c c' : Settings} {t t' : Capabilities}

/-! ## 2. Calls under other settings -/

/-- A step of a device does not look at what else is in the place of its feeds. -/
theorem ConsumerStep.run_map {σ : Type} [FeedStore σ] (g : σ → σ)
    (hfeed : ∀ place k, FeedStore.feed? (g place) k = FeedStore.feed? place k)
    (hset : ∀ place k f, FeedStore.setFeed (g place) k f = g (FeedStore.setFeed place k f))
    (source : Option Nat) (place : σ) (live : LivePulls) (x : ConsumerStep) :
    x.run source (g place) live =
      ((x.run source place live).1, g (x.run source place live).2.1,
        (x.run source place live).2.2) := by
  have hlook : run.lookUp source (g place) = run.lookUp source place := by
    simp only [run.lookUp, hfeed]
  have hfind : ∀ name, run.find name (g place) live = run.find name place live := by
    intro name
    simp only [run.find, hfeed]
  cases x with
  | pull n =>
    simp only [run, hlook]
    split
    · rfl
    · split <;> simp only [hset]
  | hold n name =>
    simp only [run, hlook]
    split <;> simp only [hset]
  | peek name =>
    simp only [run, hfind]
    split <;> rfl
  | drop name =>
    simp only [run, hfind]
    split
    · rfl
    · split <;> simp only [hset]

namespace Session

/-- The same session with other settings and another table. -/
def under (s : Session (Announcing τ)) (c : Settings) (t : Capabilities) : Session (Announcing τ) :=
  { s with settings := c, transport := { s.transport with table := t } }

@[simp] theorem stream_under (s : Session (Announcing τ)) (c : Settings) (t : Capabilities) :
    (s.under c t).stream = s.stream := rfl

@[simp] theorem state_under (s : Session (Announcing τ)) (c : Settings) (t : Capabilities) :
    (s.under c t).state = s.state := rfl

@[simp] theorem setStream_under (s : Session (Announcing τ)) (st : Stream) (c : Settings)
    (t : Capabilities) : (s.under c t).setStream st = (s.setStream st).under c t := rfl

theorem state_withLast {α : Type} (s : Session α) (last : Reading) :
    { s with last := last }.state = s.state := rfl

variable [Transport τ]

@[simp] theorem startFirst_under (s : Session (Announcing τ)) (st : Stream) (c : Settings)
    (t : Capabilities) :
    (s.under c t).startFirst st = ((s.startFirst st).1, (s.startFirst st).2.under c t) := by
  simp only [startFirst, under, Transport.start]
  rcases Transport.start s.transport.device st.handle st.format.frameRate
    st.format.layout.isStereo with ⟨e | u, x⟩ <;> rfl

omit [Transport τ] in
theorem enterCommit_under (s : Session (Announcing τ)) (st : Stream) (c : Settings)
    (t : Capabilities) : (s.under c t).enterCommit st =
      (s.enterCommit st).map fun
        | .returned s => .returned (s.under c t)
        | .pending s => .pending (s.under c t) := by
  unfold enterCommit
  dsimp only
  split
  · rfl
  · cases st.widenActive <;> rfl

omit [Transport τ] in
theorem enter_under (s : Session (Announcing τ)) (k : Call) (c : Settings) (t : Capabilities) :
    (s.under c t).enter k = (s.enter k).map fun
      | .returned s => .returned (s.under c t)
      | .pending s => .pending (s.under c t) := by
  cases k with
  | borrow =>
    simp only [enter, state_under]
    cases s.state <;> rfl
  | commit =>
    simp only [enter, stream_under]
    cases s.stream with
    | none => rfl
    | some st =>
      cases hphase : st.phase <;> simp only [hphase]
      · exact s.enterCommit_under st c t
      · exact s.enterCommit_under st c t
      · rfl
  | drain =>
    simp only [enter, state_under]
    cases s.state <;> rfl

theorem finish_under (s : Session (Announcing τ)) (k : Call) (stalled : Bool) (c : Settings)
    (t : Capabilities) : (s.under c t).finish k stalled =
      (s.finish k stalled).map (Option.map fun r => (r.1, r.2.under c t)) := by
  simp only [finish, stream_under]
  cases s.stream with
  | none => rfl
  | some st =>
    cases k with
    | borrow =>
      simp only [finishBorrow]
      cases st.feed.startFilling with
      | error x => rfl
      | ok r =>
        dsimp only
        split <;> rfl
    | commit =>
      simp only [finishCommit]
      split
      · rfl
      · cases st.feed.handOver with
        | error x => rfl
        | ok r =>
          dsimp only
          split <;> simp [Except.map]
    | drain =>
      simp only [finishDrain]
      split <;> rfl

theorem resume_under (s : Session (Announcing τ)) (c : Settings) (t : Capabilities) :
    (s.under c t).resume = s.resume.map fun r => (r.1, r.2.under c t) := by
  simp only [resume, stream_under]
  cases s.stream with
  | none => rfl
  | some st =>
    cases hphase : st.phase with
    | opened =>
      simp only [hphase]
      rfl
    | playing =>
      simp only [hphase]
      rfl
    | paused =>
      simp only [hphase, Transport.start, under]
      rcases Transport.start s.transport.device st.handle st.format.frameRate
        st.format.layout.isStereo with ⟨e | u, x⟩ <;> rfl

end Session

namespace Playback

/-- The same playback with other settings and another table. -/
def under (p : Playback (Announcing τ)) (c : Settings) (t : Capabilities) :
    Playback (Announcing τ) :=
  { p with session := p.session.under c t }

variable (p : Playback (Announcing τ)) (c : Settings) (t : Capabilities)

theorem feed?_under (k : Nat) : (p.under c t).feed? k = p.feed? k := rfl

theorem setFeed_under (k : Nat) (f : Feed) :
    (p.under c t).setFeed k f = (p.setFeed k f).under c t := by
  simp only [setFeed, under, Session.stream_under]
  cases p.session.stream with
  | none => rfl
  | some st =>
    dsimp only
    split <;> rfl

theorem consume_under (k : Nat) (x : ConsumerStep) :
    (p.under c t).consume k x = ((p.consume k x).1, (p.consume k x).2.under c t) := by
  have hrun := x.run_map (fun p : Playback (Announcing τ) => p.under c t)
    (fun p j => feed?_under p c t j) (fun p j f => setFeed_under p c t j f) (some k) p p.live
  simp only [consume]
  rw [show (p.under c t).live = p.live from rfl, hrun]
  rfl

variable [Transport τ]

omit [Transport τ] in
theorem enter_under (k : Call) :
    (p.under c t).enter k = ((p.enter k).1, (p.enter k).2.under c t) := by
  simp only [enter, under, Session.enter_under]
  rcases p.session.enter k with e | (s | s) <;> rfl

theorem pause_under : (p.under c t).pause = (p.pause.1, p.pause.2.under c t) := by
  simp only [pause, Session.pause, under, Session.stream_under]
  cases p.session.stream with
  | none => rfl
  | some st => cases hphase : st.phase <;> simp only [hphase] <;> rfl

theorem resume_under : (p.under c t).resume = (p.resume.1, p.resume.2.under c t) := by
  simp only [resume, under, Session.resume_under]
  rcases p.session.resume with e | r <;> rfl

theorem close_under : (p.under c t).close = (p.close.1, p.close.2.under c t) := by
  simp only [close, Session.close, under, Session.stream_under]
  cases p.session.stream <;> rfl

theorem finish_under (stalled : Bool) :
    (p.under c t).finish stalled = ((p.finish stalled).1, (p.finish stalled).2.under c t) := by
  simp only [finish, under, Session.stream_under, Session.finish_under]
  split
  · rename_i k st hwait hst
    rcases p.session.finish k stalled with e | (r | r) <;> rfl
  · rfl

omit [Transport τ] in
theorem handOver_under (stalled : Bool) : (p.under c t).handOver stalled =
    ((p.handOver stalled).1, (p.handOver stalled).2.under c t) := by
  simp only [handOver, under, Session.stream_under]
  split
  · split <;> rfl
  · rfl

theorem launch_under : (p.under c t).launch = (p.launch.1, p.launch.2.under c t) := by
  simp only [launch, under, Session.stream_under, Session.startFirst_under]
  split
  · rename_i st _ _
    rcases p.session.startFirst st with ⟨a | a, s⟩ <;> rfl
  · rfl

theorem refuse_under : (p.under c t).refuse = (p.refuse.1, p.refuse.2.under c t) := by
  simp only [refuse, under, Session.stream_under, Session.startFirst_under]
  split
  · rename_i st _ _
    rcases p.session.startFirst st with ⟨a | a, s⟩ <;> rfl
  · rfl

omit [Transport τ] in
theorem stray_under (k : Nat) (s : Slot) : (p.under c t).stray k s = (p.stray k s).under c t := by
  simp only [stray, feed?_under]
  cases p.feed? k with
  | none => rfl
  | some f => exact p.setFeed_under c t k _

omit [Transport τ] in
theorem fail_under (stalled : Bool) :
    (p.under c t).fail stalled = ((p.fail stalled).1, (p.fail stalled).2.under c t) := by
  simp only [fail, under, Session.stream_under]
  split
  · split <;> rfl
  · rfl

omit [Transport τ] in
theorem proceed_under (stalled : Bool) :
    (p.under c t).proceed stalled =
      ((p.proceed stalled).1, (p.proceed stalled).2.under c t) := by
  simp only [proceed, under, Session.stream_under]
  split
  · split
    · rfl
    · split <;> rfl
  · rfl

omit [Transport τ] in
theorem write_under (edits : List Edit) :
    (p.under c t).write edits = ((p.write edits).1, (p.write edits).2.under c t) := by
  simp only [write, under, Session.stream_under, Session.write]
  split
  · rename_i st _ hst _
    simp only [hst]
    rfl
  · rfl

/-- No call on an open stream looks at the settings or at the table, but the one that replaces
the settings. -/
theorem command_under {st : Stream} (hst : p.session.stream = some st) {cmd : Command}
    (hcmd : ∀ c', cmd ≠ .configure c') :
    (p.under c t).command cmd = ((p.command cmd).1, (p.command cmd).2.under c t) := by
  cases cmd with
  | openStream mem requested =>
    simp only [command, openStream, Session.openStream_of_open hst,
      Session.openStream_of_open (s := (p.under c t).session) hst]
    rfl
  | enter k => exact p.enter_under c t k
  | write edits => exact p.write_under c t edits
  | pause => exact p.pause_under c t
  | resume => exact p.resume_under c t
  | close => exact p.close_under c t
  | configure c' => exact absurd rfl (hcmd c')

end Playback

namespace Timed

/-- The same playback with other settings and another table. -/
def under (m : Timed (Announcing τ)) (c : Settings) (t : Capabilities) : Timed (Announcing τ) :=
  { m with playback := m.playback.under c t }

variable (m : Timed (Announcing τ)) (c : Settings) (t : Capabilities)

variable [Transport τ]

theorem goOn_under (w : Way) :
    (m.under c t).goOn w = ((m.goOn w).1, (m.goOn w).2.under c t) := by
  cases w with
  | finish => exact m.playback.finish_under c t m.hasStalled
  | handOver => exact m.playback.handOver_under c t m.hasStalled
  | fail => exact m.playback.fail_under c t m.hasStalled
  | proceed => exact m.playback.proceed_under c t m.hasStalled

/-- While a stream is open nothing looks at the settings or at the table. -/
theorem step_under {st : Stream} (hst : m.playback.session.stream = some st) {a : Action}
    (ha : ∀ c', a ≠ .command (.configure c')) :
    (m.under c t).step a = ((m.step a).1, (m.step a).2.under c t) := by
  cases a with
  | device k x =>
    simp only [step, Playback.step, under, Playback.consume_under]
    rfl
  | stray k s =>
    simp only [step, under, Playback.stray_under]
    rfl
  | command cmd =>
    have hno : ∀ c', cmd ≠ .configure c' := fun c' h => ha c' (h ▸ rfl)
    have hcmd := m.playback.command_under c t hst hno
    simp only [step, under]
    rw [show (m.playback.under c t).producer = m.playback.producer from rfl, hcmd]
    split <;> rfl
  | look w =>
    have hgo := m.goOn_under c t w
    simp only [step]
    rw [hgo, show (m.under c t).playback.pending? = m.playback.pending? from rfl,
      show (m.under c t).wait = m.wait from rfl]
    split <;> rfl
  | rest nanos =>
    simp only [step]
    rw [show (m.under c t).wait = m.wait from rfl]
    split <;> rfl
  | launch =>
    simp only [step, under, Playback.launch_under]
    rfl
  | refuse =>
    simp only [step, under, Playback.refuse_under]
    rfl

/-- The settings can be replaced while no call is under way. -/
theorem step_configure (c' : Settings) :
    (m.under c t).step (.command (.configure c')) =
      ((m.step (.command (.configure c'))).1, (m.step (.command (.configure c'))).2.under
        (if m.playback.producer = .free then c' else c) t) := by
  simp only [step]
  rw [show (m.under c t).playback.producer = m.playback.producer from rfl]
  split
  next hfree =>
    rw [if_pos hfree]
    rfl
  next hbusy =>
    rw [if_neg hbusy]

end Timed

/-! ## 3. As long as a stream is open -/

namespace Playback

variable {p : Playback τ}

theorem isSome_fail (hopen : p.session.stream.isSome = true) (stalled : Bool) :
    (p.fail stalled).2.session.stream.isSome = true := by
  unfold fail
  split
  · split
    · exact hopen
    · rfl
  · exact hopen

end Playback

namespace Timed

variable {m : Timed τ}

theorem not_mem_of_log {r : List Event × Playback τ} {e : Event}
    (h : ∀ limit, .event e limit ∉ (m.log r).1) : e ∉ r.1 := fun he =>
  h _ (List.mem_append_left _ (List.mem_map.mpr ⟨e, he, rfl⟩))

variable [Transport τ]

theorem isSome_goOn (hopen : m.playback.session.stream.isSome = true) {w : Way}
    (hw : .closed ∉ (m.goOn w).1) : (m.goOn w).2.session.stream.isSome = true := by
  obtain ⟨st, hst⟩ := Option.isSome_iff_exists.mp hopen
  cases w with
  | finish => exact (Playback.Endures.transition hst (m.playback.transition_finish _) hw).isSome
  | handOver => exact (Playback.Endures.transition hst (m.playback.transition_handOver _) hw).isSome
  | fail => exact Playback.isSome_fail hopen _
  | proceed => exact (Playback.Endures.proceed hst _).isSome

-- A look leaves the playback alone or goes on with the call.
theorem look_cases (m : Timed τ) (w : Way) :
    (m.step (.look w)).2.playback = m.playback ∧ (m.step (.look w)).1 = [] ∨
      m.step (.look w) = m.log (m.goOn w) := by
  simp only [step]
  split
  · exact .inl ⟨rfl, rfl⟩
  · exact .inl ⟨rfl, rfl⟩
  · exact .inl ⟨rfl, rfl⟩
  · exact .inr rfl
  · exact .inl ⟨rfl, rfl⟩

/-- Only a close ends a stream. -/
theorem stays_open (hopen : m.playback.session.stream.isSome = true) {a : Action}
    (ha : ∀ limit, .event .closed limit ∉ (m.step a).1) :
    (m.step a).2.playback.session.stream.isSome = true := by
  obtain ⟨st, hst⟩ := Option.isSome_iff_exists.mp hopen
  cases a with
  | device k x => exact (Playback.Endures.device hst k x).isSome
  | stray k s => exact (Playback.Endures.stray hst k s).isSome
  | command cmd =>
    cases hproducer : m.playback.producer with
    | free =>
      simp only [step, hproducer] at ha ⊢
      have htransition := Playback.transition_command hproducer cmd
      exact (Playback.Endures.transition hst htransition (not_mem_of_log ha)).isSome
    | waiting | launching =>
      simp only [step, hproducer]
      exact hopen
  | look w =>
    rcases m.look_cases w with ⟨hsame, -⟩ | hgo
    · rw [hsame]
      exact hopen
    · rw [hgo] at ha ⊢
      exact isSome_goOn hopen (not_mem_of_log ha)
  | rest nanos =>
    simp only [step]
    split <;> exact hopen
  | launch =>
    have htransition := m.playback.transition_launch
    exact (Playback.Endures.transition hst htransition (not_mem_of_log ha)).isSome
  | refuse => exact (Playback.Endures.refuse hst).isSome

end Timed

/-! ## 4. Resting in the manner of an opening -/

/-- How the producer of a stream rests while a call waits. -/
structure Manner where
  mode : WaitMode
  -- The longest single rest.
  interval : Duration
deriving DecidableEq, Repr

def Settings.manner (c : Settings) : Manner := ⟨c.waitMode, c.pollInterval⟩

/-- A timed playback, and the manner in which the producer of the open stream rests. -/
structure Paced (τ : Type) where
  timed : Timed (Announcing τ)
  manner : Option Manner

namespace Paced

/-- What can happen next. -/
inductive Incident where
  | act (a : Timed.Action)
  -- The wait under way rests in the manner of the stream, which takes as long as it takes.
  | rest (lasts : Manner → Nat)
  -- Somebody replaces the settings, also while a call is under way.
  | configure (c : Settings)
  -- The transport begins to show another table.
  | announce (t : Capabilities)

/-- A new session over a device, whose streams are numbered from `n` on. -/
def new (device : τ) (t : Capabilities) (c : Settings) (n : Nat) : Paced τ :=
  let m : Timed (Announcing τ) := .new ⟨device, t⟩ c
  let session := { m.playback.session with opens := n }
  ⟨{ m with playback := { m.playback with session } }, none⟩

def session (m : Paced τ) : Session (Announcing τ) := m.timed.playback.session

/-- The same with other settings and another table. -/
def under (m : Paced τ) (c : Settings) (t : Capabilities) : Paced τ :=
  { m with timed := m.timed.under c t }

/-- Takes the manner of resting along when a stream is opened. -/
def follow (m : Paced τ) (r : List Entry × Timed (Announcing τ)) : List Entry × Paced τ :=
  let manner := match m.session.stream, r.2.playback.session.stream with
    | _, none => none
    | none, some _ => some m.session.settings.manner
    | some _, some _ => m.manner
  (r.1, ⟨r.2, manner⟩)

@[simp] theorem reading_under (m : Paced τ) (c : Settings) (t : Capabilities) :
    (m.under c t).session.reading = m.session.reading := rfl

variable [Transport τ]

def step (m : Paced τ) : Incident → List Entry × Paced τ
  | .act a => m.follow (m.timed.step a)
  | .rest lasts =>
    match m.manner with
    | some manner => m.follow (m.timed.step (.rest (lasts manner)))
    | none => ([], m)
  | .configure c => ([], m.under c m.session.transport.table)
  | .announce t => ([], m.under m.session.settings t)

/-- One incident after the other, with the whole log. -/
def run (m : Paced τ) : List Incident → List Entry × Paced τ
  | [] => ([], m)
  | a :: rest => ((m.step a).1 ++ ((m.step a).2.run rest).1, ((m.step a).2.run rest).2)

/-! ## 5. Changes put in between -/

/-- The second list is the first one with changes of the settings and of the table put in. -/
inductive Amended : List Incident → List Incident → Prop where
  | nil : Amended [] []
  | keep (a : Incident) {xs ys : List Incident} (h : Amended xs ys) : Amended (a :: xs) (a :: ys)
  | configure (c : Settings) {xs ys : List Incident} (h : Amended xs ys) :
      Amended xs (.configure c :: ys)
  | announce (t : Capabilities) {xs ys : List Incident} (h : Amended xs ys) :
      Amended xs (.announce t :: ys)

theorem Amended.refl (xs : List Incident) : Amended xs xs := by
  induction xs with
  | nil => exact .nil
  | cons a xs ih => exact .keep a ih

/-- The settings that somebody sets; a producer can do so while none of its calls is under way. -/
def configured? (m : Paced τ) : Incident → Option Settings
  | .configure c => some c
  | .act (.command (.configure c)) => if m.timed.playback.producer = .free then some c else none
  | _ => none

def Incident.announced? : Incident → Option Capabilities
  | .announce t => some t
  | _ => none

/-- All settings that are set, one after the other. -/
def configured (m : Paced τ) : List Incident → List Settings
  | [] => []
  | a :: rest => (m.configured? a).toList ++ (m.step a).2.configured rest

/-- All tables that are shown, one after the other. -/
def announced : List Incident → List Capabilities
  | [] => []
  | a :: rest => a.announced?.toList ++ announced rest

/-! ## 6. Nobody can tell -/

omit [Transport τ] in
theorem follow_under {m : Paced τ} (hopen : m.session.stream.isSome = true) (es : List Entry)
    (q : Timed (Announcing τ)) (c c' : Settings) (t t' : Capabilities) :
    (m.under c t).follow (es, q.under c' t') =
      ((m.follow (es, q)).1, (m.follow (es, q)).2.under c' t') := by
  obtain ⟨st, hst⟩ := Option.isSome_iff_exists.mp hopen
  unfold follow
  rw [show (m.under c t).session.stream = m.session.stream from rfl, hst,
    show (q.under c' t').playback.session.stream = q.playback.session.stream from rfl]
  cases q.playback.session.stream <;> rfl

/-- Every incident does the same under other settings, as long as the stream is open. -/
theorem step_under {m : Paced τ} (hopen : m.session.stream.isSome = true) (a : Incident)
    (c : Settings) (t : Capabilities) :
    (m.under c t).step a = ((m.step a).1,
      (m.step a).2.under ((m.configured? a).getD c) (a.announced?.getD t)) := by
  obtain ⟨st, hst⟩ := Option.isSome_iff_exists.mp hopen
  have hact : ∀ b : Timed.Action, (∀ c', b ≠ .command (.configure c')) →
      (m.under c t).follow ((m.under c t).timed.step b) =
        ((m.follow (m.timed.step b)).1, (m.follow (m.timed.step b)).2.under c t) := by
    intro b hb
    rw [show (m.under c t).timed.step b = _ from m.timed.step_under c t hst hb]
    exact follow_under hopen _ _ _ _ _ _
  cases a with
  | act b =>
    by_cases hb : ∃ c', b = .command (.configure c')
    · obtain ⟨c', rfl⟩ := hb
      have hstep := m.timed.step_configure c t c'
      show (m.under c t).follow ((m.under c t).timed.step _) = _
      rw [show (m.under c t).timed.step (.command (.configure c')) = _ from hstep,
        follow_under hopen]
      simp only [step, configured?, Incident.announced?]
      split <;> rfl
    · have hsame := hact b fun c' h => hb ⟨c', h⟩
      have hnone : m.configured? (.act b) = none := by
        unfold configured?
        split
        next h => cases h
        next c' h =>
          cases h
          exact absurd ⟨c', rfl⟩ hb
        next => rfl
      rw [hnone]
      exact hsame
  | rest lasts =>
    simp only [step]
    rw [show (m.under c t).manner = m.manner from rfl]
    cases m.manner with
    | none => rfl
    | some manner => exact hact (.rest (lasts manner)) nofun
  | configure c' => rfl
  | announce t' => rfl

/-- Only a close ends a stream. -/
theorem stays_open {m : Paced τ} (hopen : m.session.stream.isSome = true) {a : Incident}
    (ha : ∀ limit, .event .closed limit ∉ (m.step a).1) :
    (m.step a).2.session.stream.isSome = true := by
  cases a with
  | act b => exact Timed.stays_open hopen ha
  | rest lasts =>
    simp only [step] at ha ⊢
    cases hmanner : m.manner with
    | none => exact hopen
    | some manner =>
      rw [hmanner] at ha
      exact Timed.stays_open hopen ha
  | configure c' => exact hopen
  | announce t' => exact hopen

theorem getLastD_toList_append {α : Type} (o : Option α) (xs : List α) (d : α) :
    (o.toList ++ xs).getLastD d = xs.getLastD (o.getD d) := by
  cases o with
  | none => rfl
  | some x => exact List.getLastD_cons ..

/-- A run with changes put in is the run without them, under the last settings and the last
table. -/
theorem run_amended {m : Paced τ} {xs ys : List Incident} (h : Amended xs ys)
    (hopen : xs ≠ [] → m.session.stream.isSome = true)
    (hclose : ∀ limit, .event .closed limit ∉ (m.run xs.dropLast).1) (c : Settings)
    (t : Capabilities) :
    (m.under c t).run ys = ((m.run xs).1, (m.run xs).2.under
      (((m.under c t).configured ys).getLastD c) ((announced ys).getLastD t)) := by
  induction h generalizing m c t with
  | nil => rfl
  | @keep a xs ys h ih =>
    have hstep := step_under (hopen (List.cons_ne_nil _ _)) a c t
    have hsame : (m.under c t).configured? a = m.configured? a := by cases a <;> rfl
    have hrest := ih (m := (m.step a).2) ?hopen ?hclose ((m.configured? a).getD c)
      (a.announced?.getD t)
    case hopen =>
      intro hne
      refine stays_open (hopen (List.cons_ne_nil _ _)) fun limit hmem => hclose limit ?_
      rw [List.dropLast_cons_of_ne_nil hne]
      exact List.mem_append_left _ hmem
    case hclose =>
      intro limit hmem
      cases xs with
      | nil => cases hmem
      | cons x xs => exact hclose limit (List.mem_append_right _ hmem)
    rw [run, hstep, hrest, configured, announced, hsame, hstep, getLastD_toList_append,
      getLastD_toList_append]
    rfl
  | @configure c' xs ys h ih =>
    rw [run, configured, announced, getLastD_toList_append, getLastD_toList_append]
    exact ih hopen hclose c' t
  | @announce t' xs ys h ih =>
    rw [run, configured, announced, getLastD_toList_append, getLastD_toList_append]
    exact ih hopen hclose c t'

/-- The event of an opening of the feed of that number, which has left session `u`. -/
def openingEvent (number : Nat) (u : Session (Announcing τ)) : Except OpeningError Format → Event
  | .error e => .notOpened e
  | .ok f => .opened number f (u.stream.any (·.widens))

-- What an opening leaves of a session says all about the step.
theorem step_of_openStream {m : Paced τ} (hfree : m.timed.playback.producer = .free)
    (hclosed : m.session.stream = none) {mem : Allocator} {requested : Format}
    {r : Except OpeningError Format} {u : Session (Announcing τ)}
    (hopen : m.session.openStream mem requested = .ok (r, u)) :
    m.step (.act (.command (.openStream mem requested))) =
      ([.event (openingEvent m.session.opens u r)
          ((u.stream.map (·.stallThreshold.nanos)).getD 0)],
        ⟨⟨{ m.timed.playback with session := u }, [], none⟩,
          u.stream.map fun _ => m.session.settings.manner⟩) := by
  have hnone : m.timed.playback.pending? = none := by rw [Playback.pending?, hfree]
  rw [session] at hopen hclosed
  simp only [step, Timed.step, hfree, Playback.command, Playback.openStream, hopen]
  cases r with
  | error e =>
    simp only [Timed.log, Timed.waited, hnone, follow, session, hclosed, Playback.threshold,
      openingEvent]
    cases u.stream <;> rfl
  | ok f =>
    simp only [Timed.log, Timed.waited, hnone, follow, session, hclosed, Playback.threshold,
      openingEvent]
    cases u.stream <;> rfl

/-- Opening goes by the settings, the table and the device alone. -/
theorem step_openStream {m m' : Paced τ} (hfree : m.timed.playback.producer = .free)
    (hfree' : m'.timed.playback.producer = .free) (hclosed : m.session.stream = none)
    {last : Reading} (hsession : m'.session = { m.session with last := last }) (mem : Allocator)
    (requested : Format) :
    let opening : Incident := .act (.command (.openStream mem requested))
    (m'.step opening).1 = (m.step opening).1 ∧
      (m'.step opening).2.manner = (m.step opening).2.manner ∧
      (m'.step opening).2.session = { (m.step opening).2.session with last := last } := by
  obtain ⟨⟨r, u⟩, hopen, hend⟩ := Session.openStream_of_closed hclosed mem requested
  have hclosed' : m'.session.stream = none := by rw [hsession, hclosed]
  have hopen' : m'.session.openStream mem requested = .ok (r, { u with last := last }) := by
    refine Session.openStream_of_opening hclosed' ?_
    rw [hsession]
    exact hend.withLast last
  have hopens : m'.session.opens = m.session.opens := by rw [hsession]
  have hsettings : m'.session.settings = m.session.settings := by rw [hsession]
  dsimp only
  rw [step_of_openStream hfree hclosed hopen, step_of_openStream hfree' hclosed' hopen', hopens,
    hsettings]
  exact ⟨rfl, rfl, rfl⟩

/-- From any moment at which a stream is open, over any device, and for any continuation in which
nothing but the last incident closes the stream: anybody may replace the settings and change what
the transport shows, as often as he likes and whenever he likes.

* The log is the same: every answer, every byte that a device pulls, every stall.
* So is everything else that is there afterwards, the slots with their bytes, the counters, the state
  of the session and the calls that the transport has received.  Only the settings and the table are
  the last ones that were put in.
* If the session is closed then, the next opening goes as on a new session with these settings, over
  this device with this table, and so does the manner in which its producer will rest.  Only the
  counters are those of before, until it succeeds. -/
theorem captured_at_opening (m : Paced (Logged τ)) (hopen : m.session.stream.isSome = true)
    (xs ys : List Incident) (hclose : ∀ limit, .event .closed limit ∉ (m.run xs.dropLast).1)
    (h : Amended xs ys) :
    let plain := m.run xs
    let amended := m.run ys
    let c := (m.configured ys).getLastD m.session.settings
    let t := (announced ys).getLastD m.session.transport.table
    amended.1 = plain.1 ∧
    amended.2 = plain.2.under c t ∧
    amended.2.session.transport.device.log = plain.2.session.transport.device.log ∧
    (amended.2.session.stream = none → amended.2.timed.playback.producer = .free →
      ∀ mem requested,
        let opening : Incident := .act (.command (.openStream mem requested))
        let next := amended.2.step opening
        let first := (new plain.2.session.transport.device t c plain.2.session.opens).step opening
        next.1 = first.1 ∧ next.2.manner = first.2.manner ∧
          next.2.session = { first.2.session with last := plain.2.session.last }) := by
  intro plain amended c t
  have hrun : amended = (plain.1, plain.2.under c t) :=
    run_amended h (fun _ => hopen) hclose m.session.settings m.session.transport.table
  refine ⟨by rw [hrun], by rw [hrun], by rw [hrun]; rfl, fun hclosed hfree mem requested => ?_⟩
  rw [hrun] at hclosed hfree ⊢
  refine step_openStream (m := new _ t c plain.2.session.opens) rfl hfree rfl ?_ mem requested
  show plain.2.session.under c t = _
  rw [Session.under, show plain.2.session.stream = none from hclosed]
  rfl

/-- A device that stops playing anything while a buffer is filled, and settings that would leave no
time to wait: the buffer is played as it would have been, and the next stream does not open. -/
theorem captured_at_opening_of_one_buffer :
    let device : Hardware.Manual := ⟨.linear, 0, true⟩
    let hardware : Hardware := .new (.manual device) .none
    let settings : Settings := { Settings.standard with frameCount := 2 }
    let hasty : Settings :=
      { settings with fallback := .silence, waitMode := .polling, stallThreshold := some .zero }
    let opening : Incident := .act (.command (.openStream Allocator.machine ⟨.pcm8, .mono, 8000⟩))
    let m := ((new (Logged.new hardware) .linear settings 0).run [opening]).2
    let borrowing : Incident := .act (.command (.enter .borrow))
    let filling : List Incident :=
      [.act (.look .finish), .act (.command (.write [.ramp 1]))]
    let playing : List Incident :=
      [.act (.command (.enter .commit)), .act (.look .finish), .act (.device 0 (.pull 9)),
        .act (.device 0 (.pull 9)), .act (.command .close)]
    let xs := borrowing :: filling ++ playing
    let ys := borrowing :: .announce .empty :: filling ++ .configure hasty :: playing
    (m.run ys).1 = (m.run xs).1 ∧
      (m.run ys).2.session.reading = (m.run xs).2.session.reading ∧
      ((m.run ys).2.step opening).2.session.state = .closed := by
  intro device hardware settings hasty opening m borrowing filling playing xs ys
  have hopen : m.session.stream.isSome = true := by decide +kernel
  have hturns : (m.run xs.dropLast).1.all (!·.turns) = true := by decide +kernel
  have hclose : ∀ limit, .event .closed limit ∉ (m.run xs.dropLast).1 := by
    intro limit hmem
    have hclosed := List.all_eq_true.mp hturns _ hmem
    cases hclosed
  have hchanges : Amended xs ys :=
    .keep _ (.announce _ (.keep _ (.keep _ (.configure _ (.refl playing)))))
  have hover : (m.run ys).2.session.stream = none := by decide +kernel
  have hfree : (m.run ys).2.timed.playback.producer = .free := by decide +kernel
  obtain ⟨hlog, hrest, -, hnext⟩ := captured_at_opening m hopen xs ys hclose hchanges
  obtain ⟨-, -, hsession⟩ := hnext hover hfree Allocator.machine ⟨.pcm8, .mono, 8000⟩
  refine ⟨hlog, ?_, ?_⟩
  · rw [hrest, reading_under]
  · rw [hsession, Session.state_withLast]
    decide +kernel

end Paced

end Playout

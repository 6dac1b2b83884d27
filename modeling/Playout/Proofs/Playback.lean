import Playout.Session.Playing
import Playout.Proofs.Feed

/-!
# Playbacks: a session and its devices

A `Playback` puts a session beside the devices that pull from its feeds, those of closed streams
included.  One `Action` is one thing that somebody does, and what comes of it is written down as
`Event`s.  The producer is a single thread: while one of its calls is under way it does nothing else,
but the devices go on.  A call that the contract forbids is written down and changes nothing.

The transport may be anything.  Only one case is left out: between a first hand-over and a start
that fails, no device acts.
-/

namespace Playout

/-! ## 1. Actions and events -/

/-- What the producer is in the middle of. -/
inductive Producer where
  -- Nothing.
  | free
  -- A call that has been entered and not been finished.
  | waiting (c : Call)
  -- The first commit: the buffer has been handed over and the transport is about to start.
  | launching (stalled : Bool)
deriving DecidableEq, Repr

/-- A call of a free producer. -/
inductive Command where
  | openStream (mem : Allocator) (requested : Format)
  -- Enters a call that may have to wait.
  | enter (c : Call)
  -- Writes into the buffer that was handed out.
  | write (edits : List Edit)
  | pause
  | resume
  | close
  | configure (settings : Settings)

/-- What can happen next. -/
inductive Action where
  -- A device acts; new pulls come from the feed of that number.
  | device (feed : Nat) (c : ConsumerStep)
  | command (c : Command)
  -- Tries to finish the call that has been entered.
  | finish (stalled : Bool)
  -- The first half of finishing the first commit: the hand-over alone.
  | handOver (stalled : Bool)
  -- The second half: the start, which succeeds.
  | launch

/-- What has happened. -/
inductive Event where
  | device (feed : Nat) (c : ConsumerStep) (reply : ConsumerReply)
  | opened (feed : Nat) (format : Format) (widens : Bool)
  | notOpened (e : OpeningError)
  -- A call on a paused session that returned as soon as it was entered.
  | skipped (c : Call)
  -- A finished call on the stream of that feed.
  | answered (feed : Nat) (c : Call) (stalled : Bool) (a : Answer)
  -- The first hand-over, if the start is yet to come.
  | handedOver (feed : Nat)
  -- The start after it, with which the first commit is done.
  | launched (feed : Nat) (stalled : Bool)
  | wrote (feed : Nat) (edits : List Edit)
  | paused
  | resumed (a : Answer)
  | closed
  -- A call that was refused, or a failed check.
  | fault (f : Fault)
deriving DecidableEq, Repr

/-! ## 2. The system -/

/-- A session, the producer that uses it, and what the devices hold. -/
structure Playback (τ : Type) where
  session : Session τ
  producer : Producer
  -- The slot whose bytes the producer can write.
  lent : Option Slot
  -- The feeds of closed streams, by number.
  kept : Nat → Option Feed
  live : LivePulls

namespace Playback

variable {τ : Type}

def new (transport : τ) (settings : Settings) : Playback τ :=
  ⟨.new transport settings, .free, none, fun _ => none, []⟩

/-- The feed of that number, whether its stream is open or closed. -/
def feed? (p : Playback τ) (k : Nat) : Option Feed :=
  match p.session.stream with
  | some st => if st.number = k then some st.feed else p.kept k
  | none => p.kept k

/-- Keeps a feed under its number. -/
def keep (p : Playback τ) (k : Nat) (f : Feed) : Playback τ :=
  { p with kept := fun j => if j = k then some f else p.kept j }

def setFeed (p : Playback τ) (k : Nat) (f : Feed) : Playback τ :=
  match p.session.stream with
  | some st =>
    if st.number = k then { p with session := p.session.setStream { st with feed := f } }
    else p.keep k f
  | none => p.keep k f

instance : FeedStore (Playback τ) := ⟨feed?, setFeed⟩

/-- One step of a device. -/
def consume (p : Playback τ) (k : Nat) (c : ConsumerStep) : ConsumerReply × Playback τ :=
  let (r, q, live) := c.run (some k) p p.live
  (r, { q with live })

variable [Transport τ]

def openStream (p : Playback τ) (mem : Allocator) (requested : Format) :
    List Event × Playback τ :=
  match p.session.openStream mem requested with
  | .error f => ([.fault f], p)
  | .ok (.error e, s) => ([.notOpened e], { p with session := s })
  | .ok (.ok format, s) =>
    ([.opened p.session.opens format (s.stream.any (·.widens))], { p with session := s })

def enter (p : Playback τ) (c : Call) : List Event × Playback τ :=
  match p.session.enter c with
  | .error f => ([.fault f], p)
  | .ok (.returned s) => ([.skipped c], { p with session := s })
  | .ok (.pending s) => ([], { p with session := s, producer := .waiting c })

/-- Writes into the buffer that was handed out, if there is one. -/
def write (p : Playback τ) (edits : List Edit) : List Event × Playback τ :=
  match p.session.stream, p.lent with
  | some st, some _ => ([.wrote st.number edits], { p with session := p.session.write edits })
  | _, _ => ([], p)

def pause (p : Playback τ) : List Event × Playback τ :=
  match p.session.pause with
  | .error f => ([.fault f], p)
  | .ok s => ([.paused], { p with session := s })

def resume (p : Playback τ) : List Event × Playback τ :=
  match p.session.resume with
  | .error f => ([.fault f], p)
  | .ok (a, s) => ([.resumed a], { p with session := s })

/-- Closes the stream; its feed stays where the device can find it. -/
def close (p : Playback τ) : List Event × Playback τ :=
  match p.session.stream with
  | none => ([.closed], { p with session := p.session.close })
  | some st =>
    ([.closed], { p.keep st.number st.feed with session := p.session.close, lent := none })

def command (p : Playback τ) : Command → List Event × Playback τ
  | .openStream mem requested => p.openStream mem requested
  | .enter c => p.enter c
  | .write edits => p.write edits
  | .pause => p.pause
  | .resume => p.resume
  | .close => p.close
  | .configure settings => ([], { p with session := p.session.configure settings })

/-- The slot that can be written after a call. -/
def lentAfter (p : Playback τ) (st : Stream) : Call → Option Slot
  | .borrow => some st.feed.handshake.active
  | .commit => none
  | .drain => p.lent

/-- Tries to finish the call that has been entered. -/
def finish (p : Playback τ) (stalled : Bool) : List Event × Playback τ :=
  match p.producer, p.session.stream with
  | .waiting c, some st =>
    match p.session.finish c stalled with
    | .error f => ([.fault f], p)
    | .ok none => ([], p)
    | .ok (some (a, s)) =>
      ([.answered st.number c stalled a],
        { p with session := s, producer := .free, lent := p.lentAfter st c })
  | _, _ => ([], p)

/-- Hands the first buffer over and leaves the start for later. -/
def handOver (p : Playback τ) (stalled : Bool) : List Event × Playback τ :=
  match p.producer, p.session.stream with
  | .waiting .commit, some st =>
    match st.phase, st.blocks .commit, st.feed.handOver with
    | .opened, false, .ok (_, feed) =>
      ([.handedOver st.number],
        { p with
          session := p.session.setStream ({ st with feed }.countStall stalled)
          producer := .launching stalled
          lent := none })
    | _, _, _ => ([], p)
  | _, _ => ([], p)

/-- The start after the first hand-over.  Where it would fail, nothing happens here: a start that
fails belongs to `finish`. -/
def launch (p : Playback τ) : List Event × Playback τ :=
  match p.producer, p.session.stream with
  | .launching stalled, some st =>
    match p.session.startFirst st with
    | (.done, s) =>
      ([.launched st.number stalled], { p with session := s, producer := .free })
    | _ => ([], p)
  | _, _ => ([], p)

/-- What an action does, with the events that it leaves. -/
def step (p : Playback τ) : Action → List Event × Playback τ
  | .device k c =>
    let (r, q) := p.consume k c
    ([.device k c r], q)
  | .command c =>
    match p.producer with
    | .free => p.command c
    | _ => ([], p)
  | .finish stalled => p.finish stalled
  | .handOver stalled => p.handOver stalled
  | .launch => p.launch

/-- One action after the other, with all the events. -/
def run (p : Playback τ) : List Action → List Event × Playback τ
  | [] => ([], p)
  | a :: rest =>
    ((p.step a).1 ++ ((p.step a).2.run rest).1, ((p.step a).2.run rest).2)

theorem run_append (p : Playback τ) (as bs : List Action) :
    p.run (as ++ bs) =
      ((p.run as).1 ++ ((p.run as).2.run bs).1, ((p.run as).2.run bs).2) := by
  induction as generalizing p with
  | nil => rfl
  | cons a rest ih => rw [List.cons_append, run, run, ih, List.append_assoc]

/-- What holds before anything happened and survives every action holds after every run. -/
theorem run_induction {motive : List Event → Playback τ → Prop} {p : Playback τ}
    (start : motive [] p)
    (next : ∀ tr q a, motive tr q → motive (tr ++ (q.step a).1) (q.step a).2)
    (as : List Action) : motive (p.run as).1 (p.run as).2 := by
  -- the events so far have to be carried along for the induction
  suffices h : ∀ tr q, motive tr q → motive (tr ++ (q.run as).1) (q.run as).2 from h [] p start
  induction as with
  | nil =>
    intro tr q hq
    simpa [run] using hq
  | cons a rest ih =>
    intro tr q hq
    have hrest := ih (tr ++ (q.step a).1) (q.step a).2 (next tr q a hq)
    rwa [List.append_assoc] at hrest

/-! ## 3. Feeds by number -/

omit [Transport τ]

theorem feed?_setFeed (p : Playback τ) (k j : Nat) (f : Feed) :
    (p.setFeed k f).feed? j = if j = k then some f else p.feed? j := by
  unfold setFeed
  split
  next st hst =>
    split
    next hk =>
      subst hk
      by_cases hj : j = st.number
      · simp [feed?, Session.setStream, hj]
      · simp [feed?, Session.setStream, hst, hj, Ne.symm hj]
    next hk =>
      by_cases hj : j = k
      · subst hj
        simp [feed?, keep, hst, hk]
      · simp [feed?, keep, hst, hj]
  next hst =>
    by_cases hj : j = k <;> simp [feed?, keep, hst, hj]

-- Replacing a feed changes at most the feed of the open stream.
theorem stream_setFeed (p : Playback τ) (k : Nat) (f : Feed) :
    (p.setFeed k f).session.stream =
      p.session.stream.map fun st => if st.number = k then { st with feed := f } else st := by
  unfold setFeed
  split
  next st hst =>
    split
    next hk => simp [Session.setStream, hst, hk]
    next hk => simp [keep, hst, hk]
  next hst => simp [keep, hst]

@[simp] theorem transport_setFeed (p : Playback τ) (k : Nat) (f : Feed) :
    (p.setFeed k f).session.transport = p.session.transport := by
  unfold setFeed
  split
  · split <;> rfl
  · rfl

@[simp] theorem opens_setFeed (p : Playback τ) (k : Nat) (f : Feed) :
    (p.setFeed k f).session.opens = p.session.opens := by
  unfold setFeed
  split
  · split <;> rfl
  · rfl

@[simp] theorem last_setFeed (p : Playback τ) (k : Nat) (f : Feed) :
    (p.setFeed k f).session.last = p.session.last := by
  unfold setFeed
  split
  · split <;> rfl
  · rfl

@[simp] theorem producer_setFeed (p : Playback τ) (k : Nat) (f : Feed) :
    (p.setFeed k f).producer = p.producer := by
  unfold setFeed
  split
  · split <;> rfl
  · rfl

@[simp] theorem lent_setFeed (p : Playback τ) (k : Nat) (f : Feed) :
    (p.setFeed k f).lent = p.lent := by
  unfold setFeed
  split
  · split <;> rfl
  · rfl

@[simp] theorem live_setFeed (p : Playback τ) (k : Nat) (f : Feed) :
    (p.setFeed k f).live = p.live := by
  unfold setFeed
  split
  · split <;> rfl
  · rfl

theorem setFeed_live (p : Playback τ) (k : Nat) (f : Feed) :
    { p.setFeed k f with live := p.live } = p.setFeed k f := by
  rw [← p.live_setFeed k f]

/-! ## 4. What a device can do -/

/-- The ends of one step of a device that takes new pulls from feed `k`. -/
inductive Consumption (p : Playback τ) (k : Nat) :
    ConsumerStep → ConsumerReply × Playback τ → Prop where
  -- Nothing to pull from, or no such pull.
  | nothing (c : ConsumerStep) : Consumption p k c (.nothing, p)
  -- A pull that was dropped at once.
  | pulled (n : Nat) (f f' : Feed) (hfeed : p.feed? k = some f)
      (hdrop : (f.pull n).2.drop (f.pull n).1 = .ok f') :
      Consumption p k (.pull n) ((f.pull n).2.view (f.pull n).1, p.setFeed k f')
  -- A new pull that stays alive.
  | held (n : Nat) (name : String) (f : Feed) (hname : p.live.named? name = none)
      (hfeed : p.feed? k = some f) :
      Consumption p k (.hold n name) ((f.pull n).2.view (f.pull n).1,
        { p.setFeed k (f.pull n).2 with live := ⟨name, k, (f.pull n).1⟩ :: p.live })
  | peeked (name : String) (l : LivePull) (f : Feed) (hname : p.live.named? name = some l)
      (hfeed : p.feed? l.feed = some f) :
      Consumption p k (.peek name) (f.view l.pull, p)
  | dropped (name : String) (l : LivePull) (f f' : Feed) (hname : p.live.named? name = some l)
      (hfeed : p.feed? l.feed = some f) (hdrop : f.drop l.pull = .ok f') :
      Consumption p k (.drop name)
        (.done, { p.setFeed l.feed f' with live := p.live.without name })
  -- The slot of the pull was not being read.
  | faulted (name : String) (l : LivePull) (f : Feed) (d : Defect)
      (hname : p.live.named? name = some l) (hfeed : p.feed? l.feed = some f)
      (hdrop : f.drop l.pull = .error d) :
      Consumption p k (.drop name)
        (.fault (.defect d), { p with live := p.live.without name })

theorem consume_pull {p : Playback τ} {k n : Nat} {f f' : Feed} (hfeed : p.feed? k = some f)
    (hdrop : (f.pull n).2.drop (f.pull n).1 = .ok f') :
    p.consume k (.pull n) = ((f.pull n).2.view (f.pull n).1, p.setFeed k f') := by
  simp [-producer_setFeed, -lent_setFeed, consume, ConsumerStep.run, ConsumerStep.run.lookUp,
    FeedStore.feed?, FeedStore.setFeed, hfeed, hdrop, setFeed_live]

theorem consume_hold {p : Playback τ} {k n : Nat} {name : String} {f : Feed}
    (hname : p.live.named? name = none) (hfeed : p.feed? k = some f) :
    p.consume k (.hold n name) = ((f.pull n).2.view (f.pull n).1,
      { p.setFeed k (f.pull n).2 with live := ⟨name, k, (f.pull n).1⟩ :: p.live }) := by
  simp [consume, ConsumerStep.run, ConsumerStep.run.lookUp, FeedStore.feed?, FeedStore.setFeed,
    hfeed, hname]

theorem consume_peek {p : Playback τ} (k : Nat) {name : String} {l : LivePull} {f : Feed}
    (hname : p.live.named? name = some l) (hfeed : p.feed? l.feed = some f) :
    p.consume k (.peek name) = (f.view l.pull, p) := by
  simp [consume, ConsumerStep.run, ConsumerStep.run.find, FeedStore.feed?, hfeed, hname]

theorem consume_drop {p : Playback τ} (k : Nat) {name : String} {l : LivePull} {f f' : Feed}
    (hname : p.live.named? name = some l) (hfeed : p.feed? l.feed = some f)
    (hdrop : f.drop l.pull = .ok f') :
    p.consume k (.drop name) =
      (.done, { p.setFeed l.feed f' with live := p.live.without name }) := by
  simp [consume, ConsumerStep.run, ConsumerStep.run.find, FeedStore.feed?, FeedStore.setFeed,
    hfeed, hname, hdrop]

/-- A step of a device ends in one of these ways. -/
theorem consumption (p : Playback τ) (k : Nat) (c : ConsumerStep) :
    p.Consumption k c (p.consume k c) := by
  have hend := ConsumerStep.outcome (some k) p p.live c
  unfold consume
  generalize c.run (some k) p p.live = r at hend
  cases hend with
  | nothing => exact .nothing c
  | pulled n j f f' hsource hfeed hdrop =>
    cases hsource
    have hpulled := Consumption.pulled n f f' hfeed hdrop
    rwa [← p.setFeed_live k f'] at hpulled
  | held n j name f hname hsource hfeed =>
    cases hsource
    exact .held n name f hname hfeed
  | peeked name l f hname hfeed => exact .peeked name l f hname hfeed
  | dropped name l f f' hname hfeed hdrop => exact .dropped name l f f' hname hfeed hdrop
  | faulted name l f d hname hfeed hdrop => exact .faulted name l f d hname hfeed hdrop

end Playback

end Playout

import Playout.Bench.Hardware
import Playout.Session.Playing

/-!
# A bench for sessions

Runs a script on a session over scripted hardware.  A step that would have to wait is left out,
unless the script says what the device does meanwhile: then the call is entered, the device's steps
are done for as long as the call is blocked, the call is finished, and the other steps follow.
-/

namespace Playout

namespace SessionBench

inductive Step where
  | consumer (step : ConsumerStep)
  | openStream (requested : Format)
  -- A call that may wait, what is written if it answers a buffer, and what the device does
  -- meanwhile.
  | call (c : Call) (edits : List Edit) (during : Option (List ConsumerStep))
  | pause
  | resume
  | close
  | configure (c : Settings)
  -- Change which transport calls fail.
  | fail (changes : List (Hardware.Stage × Option Refusal))
  -- Change what the device plays.
  | capabilities (t : Capabilities)
deriving DecidableEq, Repr

inductive Reply where
  | consumer (reply : ConsumerReply)
  -- The format that is played, the stall threshold, and whether mono is duplicated.
  | opened (f : Format) (stallThreshold : Duration) (widens : Bool)
  | notOpened (e : OpeningError)
  -- The content of the buffer before it was written.
  | buffer (before : Bytes)
  | done
  | refused (e : Refusal)
  | settings (c : Settings)
  -- The call would have to wait and was not made.
  | wouldBlock
  | fault (f : Fault)
deriving DecidableEq, Repr

/-- What the device did around a call, and whether the call was blocked. -/
structure Meanwhile where
  blocked : Bool
  replies : List ConsumerReply
deriving DecidableEq, Repr

end SessionBench

structure SessionBench where
  session : Session Hardware
  -- The feeds of closed streams, by number.
  retired : List (Nat × Feed)
  live : LivePulls
deriving DecidableEq, Repr

namespace SessionBench

def new (hardware : Hardware) (settings : Settings) : SessionBench :=
  ⟨.new hardware settings, [], []⟩

/-! ## 1. Feeds by number -/

/-- The feed with a number: that of the open stream, or of a closed one. -/
def feed? (b : SessionBench) (k : Nat) : Option Feed :=
  match b.session.stream with
  | some st => if st.number = k then some st.feed else b.retired.lookup k
  | none => b.retired.lookup k

def replace (k : Nat) (f : Feed) : List (Nat × Feed) → List (Nat × Feed)
  | [] => []
  | (k', g) :: rest => if k' = k then (k, f) :: rest else (k', g) :: replace k f rest

def setRetired (b : SessionBench) (k : Nat) (f : Feed) : SessionBench :=
  { b with retired := replace k f b.retired }

def setFeed (b : SessionBench) (k : Nat) (f : Feed) : SessionBench :=
  match b.session.stream with
  | some st =>
    if st.number = k then { b with session := b.session.setStream { st with feed := f } }
    else b.setRetired k f
  | none => b.setRetired k f

instance : FeedStore SessionBench := ⟨feed?, setFeed⟩

def withSession (b : SessionBench) (session : Session Hardware) : SessionBench :=
  { b with session }

/-- Whether anything still refers to a feed: the open stream, the hardware or a held pull. -/
def isAlive (b : SessionBench) (k : Nat) : Bool :=
  b.session.stream.any (·.number == k) || b.session.transport.attached == some k ||
    b.live.holds k

/-- The feed registered last, as long as something refers to it. -/
def observed? (b : SessionBench) : Option Feed := do
  let k ← b.session.transport.registered
  if b.isAlive k then b.feed? k else none

/-! ## 2. The device -/

/-- Does one thing a device does, on the feed that is attached. -/
def consume (b : SessionBench) (c : ConsumerStep) : ConsumerReply × SessionBench :=
  let (reply, b, live) := c.run b.session.transport.attached b b.live
  (reply, { b with live })

def consumeAll (b : SessionBench) : List ConsumerStep → List ConsumerReply × SessionBench
  | [] => ([], b)
  | c :: rest =>
    let (reply, b) := b.consume c
    let (replies, b) := b.consumeAll rest
    (reply :: replies, b)

/-- Does steps for as long as a call is blocked; answers also the steps that are left. -/
def consumeWhile (blocked : SessionBench → Bool) (b : SessionBench) :
    List ConsumerStep → List ConsumerReply × List ConsumerStep × SessionBench
  | [] => ([], [], b)
  | c :: rest =>
    if blocked b then
      let (reply, b) := b.consume c
      let (replies, left, b) := consumeWhile blocked b rest
      (reply :: replies, left, b)
    else ([], c :: rest, b)

def firstRound (b : SessionBench) (h : Handle) (k : Nat) : SessionBench :=
  match b.session.transport.device, b.feed? k with
  | .simulated d, some f =>
    match d.iterate h f with
    | .ok (d, f) =>
      (b.withSession { b.session with
        transport := { b.session.transport with device := .simulated d } }).setFeed k f
    | .error _ => b
  | _, _ => b

/-- Lets every worker of a simulated device that has not pulled yet do so. -/
def settle (b : SessionBench) : SessionBench :=
  match b.session.transport.device with
  | .manual _ => b
  | .simulated d => d.freshWorkers.foldl (fun b w => b.firstRound w.1 w.2) b

/-! ## 3. Steps -/

/-- Whether the session, inside a call that it has entered, is still blocked. -/
def isBlocked (c : Call) (b : SessionBench) : Bool := b.session.stream.any (·.blocks c)

/-- The bench after a call answered: a buffer is written. -/
def conclude (b : SessionBench) (edits : List Edit) (a : Answer) (s : Session Hardware) :
    Reply × SessionBench :=
  match a with
  | .buffer bytes => (.buffer bytes, b.withSession (s.write edits))
  | .done => (.done, b.withSession s)
  | .refused e => (.refused e, b.withSession s)

def finish (b : SessionBench) (c : Call) (edits : List Edit) (stalled : Bool) :
    Reply × SessionBench :=
  match b.session.finish c stalled with
  | .error f => (.fault f, b)
  | .ok none => (.wouldBlock, b)
  | .ok (some (a, s)) => b.conclude edits a s

/-- Makes a call that may wait, without help from the device. -/
def callAlone (b : SessionBench) (c : Call) (edits : List Edit) : Reply × SessionBench :=
  if b.session.blocks c then (.wouldBlock, b)
  else match b.session.enter c with
    | .error f => (.fault f, b)
    | .ok (.returned s) => (.done, b.withSession s)
    | .ok (.pending s) => (b.withSession s).finish c edits false

/-- Whether a wait of the open stream is a stall however short it is. -/
def stallsAtOnce (b : SessionBench) : Bool :=
  b.session.stream.any fun st => decide (st.stallThreshold.nanos = 0)

/-- Makes a call that may wait while the device does the given steps. -/
def callDuring (b : SessionBench) (c : Call) (edits : List Edit) (steps : List ConsumerStep) :
    Reply × Meanwhile × SessionBench :=
  match b.session.enter c with
  | .error f => rest (.fault f) false [] steps b
  | .ok (.returned s) => rest .done false [] steps (b.withSession s)
  | .ok (.pending s) =>
    let b := b.withSession s
    let blocked := b.isBlocked c
    let (replies, left, b) := consumeWhile (isBlocked c) b steps
    let (reply, b) := b.finish c edits (blocked && b.stallsAtOnce)
    rest reply blocked replies left b.settle
where
  -- The steps that are left when the call is over.
  rest (reply : Reply) (blocked : Bool) (replies : List ConsumerReply)
      (left : List ConsumerStep) (b : SessionBench) : Reply × Meanwhile × SessionBench :=
    let (more, b) := b.consumeAll left
    (reply, ⟨blocked, replies ++ more⟩, b)

def openStream (b : SessionBench) (requested : Format) : Reply × SessionBench :=
  match b.session.openStream .machine requested with
  | .error f => (.fault f, b)
  | .ok (.error e, s) => (.notOpened e, b.withSession s)
  | .ok (.ok f, s) =>
    match s.stream with
    | none => (.done, b.withSession s)
    | some st => (.opened f st.stallThreshold st.widens, b.withSession s)

/-- Closes the stream; its feed goes to the retired ones. -/
def close (b : SessionBench) : SessionBench :=
  let retired := match b.session.stream with
    | none => b.retired
    | some st => (st.number, st.feed) :: b.retired
  { b with session := b.session.close, retired }

/-- Does a step other than a call that may wait. -/
def plain (b : SessionBench) : Step → Reply × SessionBench
  | .consumer c =>
    let (reply, b) := b.consume c
    (.consumer reply, b)
  | .openStream requested => b.openStream requested
  | .call c edits _ => b.callAlone c edits
  | .pause =>
    match b.session.pause with
    | .error f => (.fault f, b)
    | .ok s => (.done, b.withSession s)
  | .resume =>
    match b.session.resume with
    | .error f => (.fault f, b)
    | .ok (a, s) => b.conclude [] a s
  | .close => (.done, b.close)
  | .configure c => (.settings c, b.withSession (b.session.configure c))
  | .fail changes =>
    let w := b.session.transport
    let failures := changes.foldl (fun f (s, e) => f.set s e) w.failures
    (.done, b.withSession { b.session with transport := { w with failures } })
  | .capabilities t =>
    (.done, b.withSession
      { b.session with transport := b.session.transport.setCapabilities t })

/-- Does one step of a script, to the point where the device is idle again. -/
def step (b : SessionBench) (s : Step) : Reply × Option Meanwhile × SessionBench :=
  match s with
  | .call c edits (some during) =>
    let (reply, meanwhile, b) := b.callDuring c edits during
    (reply, some meanwhile, b.settle)
  | s =>
    let (reply, b) := b.plain s
    (reply, none, b.settle)

def afterLook (b : SessionBench) : SessionBench :=
  b.withSession { b.session with transport := b.session.transport.afterLook }

end SessionBench

end Playout

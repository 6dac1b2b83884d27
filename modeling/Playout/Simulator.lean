import Playout.Feed
import Playout.Transport

/-!
# A simulated device

A `Simulator` is a transport without hardware.  Each started stream has a worker that pulls a whole
buffer, once at the start and then once per period, and records what was delivered.  What a worker
does in one round is `iterate`; when it does so is up to whoever runs the simulation.
-/

namespace Playout

/-- How many streams a simulator has at most. -/
def streamLimit : Nat := 4

def simulatorName : String := "dummy"

namespace Simulator

/-- What pulls for a started stream. -/
structure Worker where
  -- The time from one pull to the next.
  period : Duration
  -- The feed that was registered when the stream was started.
  feed : FeedRef
  -- How often it has pulled.
  rounds : Nat
deriving DecidableEq, Repr

/-- A stream of a simulator. -/
structure Stream where
  handle : Handle
  -- How much one pull asks for.
  bytes : Nat
  feed : Option FeedRef
  worker : Option Worker
deriving DecidableEq, Repr

/-- What can be seen of a simulator from outside, summed over all streams. -/
structure Monitor where
  pulls : UInt64
  deliveredBytes : UInt64
  underruns : UInt64
  -- How many workers there are, in a word that wraps as the others do.
  workers : UInt64
  -- The level set last on any stream.
  gain : Gain
deriving DecidableEq, Repr

def Monitor.initial : Monitor := ⟨0, 0, 0, 0, .min⟩

/-- How many workers are shown outside. -/
def Monitor.running (m : Monitor) : Nat := m.workers.toNat

/-- Why a stream did not start. -/
inductive StartFailure where
  | refused (e : Refusal)
  -- The buffer is too large to count its bits in a machine word.
  | overflow
deriving DecidableEq, Repr

def StartFailure.message : StartFailure → String
  | .refused e => e.message
  | .overflow => "attempt to multiply with overflow"

end Simulator

structure Simulator where
  capabilities : Capabilities
  -- The period of every worker; without it, the playing time of the buffer.
  period : Option Duration
  nextId : UInt32
  streams : List Simulator.Stream
  monitor : Simulator.Monitor
  -- The delivered buffers, oldest first.
  recorded : Array Bytes
deriving DecidableEq, Repr

namespace Simulator

def new (capabilities : Capabilities) (period : Option Duration) : Simulator :=
  ⟨capabilities, period, 0, [], .initial, #[]⟩

/-! ## 1. Streams by handle -/

def stream? (d : Simulator) (h : Handle) : Option Stream := d.streams.find? (·.handle == h)

/-- Replaces the first stream that has a property. -/
def updateFirst (p : Stream → Bool) (f : Stream → Stream) : List Stream → List Stream
  | [] => []
  | s :: rest => if p s then f s :: rest else s :: updateFirst p f rest

/-- The device with the first stream of that handle changed. -/
def modify (d : Simulator) (h : Handle) (f : Stream → Stream) : Simulator :=
  { d with streams := updateFirst (·.handle == h) f d.streams }

/-- Removes the entry at a place; the last one takes its place. -/
def swapRemove {α : Type} (l : List α) (i : Nat) : List α :=
  match l.getLast? with
  | none => l
  | some last => (l.set i last).dropLast

/-- The device with one worker less, if the stream has one. -/
def retire (d : Simulator) (s : Stream) : Simulator :=
  if s.worker.isSome then
    { d with monitor := { d.monitor with workers := d.monitor.workers - 1 } }
  else d

/-! ## 2. Calls -/

/-- A new stream, as long as there are fewer than `streamLimit`. -/
def create (d : Simulator) (bytes : Nat) : Except Refusal Handle × Simulator :=
  if streamLimit ≤ d.streams.length then (.error .noHandle, d)
  else if bytes = 0 then (.error .badFormat, d)
  else
    (.ok ⟨d.nextId⟩,
      { d with
        nextId := d.nextId + 1
        streams := d.streams ++ [⟨⟨d.nextId⟩, bytes, none, none⟩] })

/-- Ties a feed to a stream.  A running worker keeps the feed it has. -/
def register (d : Simulator) (h : Handle) (feed : FeedRef) :
    Except Refusal Unit × Simulator :=
  match d.stream? h with
  | none => (.error .unknownHandle, d)
  | some _ => (.ok (), d.modify h fun s => { s with feed := some feed })

/-- Notes the output level, if there is such a stream. -/
def setGain (d : Simulator) (h : Handle) (gain : Gain) : Simulator :=
  match d.stream? h with
  | none => d
  | some _ => { d with monitor := { d.monitor with gain } }

/-- The playing time of the frames that a buffer of that size holds, or no answer when the number of
its bits does not fit a machine word. -/
def naturalPeriod? (bytes : Nat) (e : Encoding) (rate : UInt32) (stereo : Bool) :
    Option Duration :=
  let format : Format := ⟨e, if stereo then .stereo else .mono, rate⟩
  if bytes * 8 < wordLimit then some (format.playTime (bytes * 8 / format.frameBits)) else none

/-- The period that a stream with this feed would be started with. -/
def periodFor? (d : Simulator) (s : Stream) (feed : FeedRef) (rate : UInt32) (stereo : Bool) :
    Option Duration :=
  match d.period with
  | some p => some p
  | none => naturalPeriod? s.bytes feed.format.encoding rate stereo

/-- The device with a worker for that stream. -/
def employ (d : Simulator) (h : Handle) (w : Worker) : Simulator :=
  let d := d.modify h fun s => { s with worker := some w }
  { d with monitor := { d.monitor with workers := d.monitor.workers + 1 } }

/-- Starts a stream and answers its period; a started stream goes on as it is. -/
def start (d : Simulator) (h : Handle) (rate : UInt32) (stereo : Bool) :
    Except StartFailure (Option Duration × Simulator) :=
  match d.stream? h with
  | none => .error (.refused .unknownHandle)
  | some s =>
    if s.worker.isSome then .ok (none, d)
    else match s.feed with
      | none => .error (.refused (.other "no callback registered"))
      | some feed =>
        match d.periodFor? s feed rate stereo with
        | none => .error .overflow
        | some period => .ok (some period, d.employ h ⟨period, feed, 0⟩)

def stop (d : Simulator) (h : Handle) : Simulator :=
  match d.stream? h with
  | none => d
  | some s => (d.retire s).modify h fun s => { s with worker := none }

/-- Stops a stream and gives it up. -/
def destroy (d : Simulator) (h : Handle) : Simulator :=
  match d.streams.findIdx? (·.handle == h), d.stream? h with
  | some i, some s => { d.retire s with streams := swapRemove d.streams i }
  | _, _ => d

def shutDown (d : Simulator) : Simulator :=
  let d := d.streams.foldl retire d
  { d with streams := d.streams.map fun s => { s with worker := none } }

/-! ## 3. Workers -/

/-- The monitor after one round of a worker that found this pull. -/
def Monitor.count (m : Monitor) (p : Pull) : Monitor :=
  let m := { m with pulls := m.pulls + 1 }
  if p.isUnderrun then { m with underruns := m.underruns + 1 }
  else { m with deliveredBytes := m.deliveredBytes + UInt64.ofNat p.delivered }

/-- One round of the worker of a stream: a pull from its feed, counted, recorded if it delivered,
and dropped.  Without a worker nothing happens. -/
def iterate (d : Simulator) (h : Handle) (f : Feed) : Except Defect (Simulator × Feed) :=
  match d.stream? h with
  | none => .ok (d, f)
  | some s =>
    match s.worker with
    | none => .ok (d, f)
    | some w =>
      let (p, pulled) := f.pull s.bytes
      let d := d.modify h fun s => { s with worker := some { w with rounds := w.rounds + 1 } }
      let d := { d with
        monitor := d.monitor.count p
        recorded := if p.isUnderrun then d.recorded else d.recorded.push (pulled.read p) }
      match pulled.drop p with
      | .ok f => .ok (d, f)
      | .error e => .error e

/-- The streams whose worker has not pulled yet, with the numbers of their feeds. -/
def freshWorkers (d : Simulator) : List (Handle × Nat) :=
  d.streams.filterMap fun s =>
    match s.worker with
    | some w => if w.rounds = 0 then some (s.handle, w.feed.number) else none
    | none => none

/-- To a session, a buffer too large to start counts as a refusal. -/
def startOrRefuse (d : Simulator) (h : Handle) (rate : UInt32) (stereo : Bool) :
    Except Refusal (Option Duration) × Simulator :=
  match d.start h rate stereo with
  | .ok (period, d) => (.ok period, d)
  | .error (.refused e) => (.error e, d)
  | .error .overflow => (.error (.other StartFailure.overflow.message), d)

instance : Transport Simulator where
  capabilities := capabilities
  create := create
  register := register
  setGain := setGain
  start d h rate stereo :=
    match d.startOrRefuse h rate stereo with
    | (.ok _, d) => (.ok (), d)
    | (.error e, d) => (.error e, d)
  stop := stop
  destroy := destroy

end Simulator

end Playout

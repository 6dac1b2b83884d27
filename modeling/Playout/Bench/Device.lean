import Playout.Bench.Feed
import Playout.Simulator

/-!
# A bench for the simulated device

Calls a simulated device directly, with a row of feeds to register, and lets each worker pull once
right after it was started.
-/

namespace Playout

namespace DeviceBench

inductive Step where
  | create (bytes : Nat)
  | register (h : Handle) (feed : Nat)
  | setGain (h : Handle) (gain : Gain)
  | start (h : Handle) (rate : UInt32) (stereo : Bool)
  | stop (h : Handle)
  | destroy (h : Handle)
  -- Fill the active slot of a feed and hand it over.
  | commit (feed : Nat) (edits : List Edit)
  | capabilities
deriving DecidableEq, Repr

inductive Reply where
  | created (h : Handle)
  -- The period of the worker, or nothing if there was one already.
  | started (period : Option Duration)
  | notStarted (f : Simulator.StartFailure)
  | refused (e : Refusal)
  | feed (reply : FeedBench.Reply)
  | capabilities (t : Capabilities)
  | done
  -- There is no feed of that number.
  | nothing
deriving DecidableEq, Repr

end DeviceBench

/-- A simulated device and feeds for it. -/
structure DeviceBench where
  device : Simulator
  feeds : List Feed
deriving DecidableEq, Repr

namespace DeviceBench

def register (b : DeviceBench) (h : Handle) (k : Nat) : Reply × DeviceBench :=
  match b.feeds[k]? with
  | none => (.nothing, b)
  | some f =>
    match b.device.register h ⟨k, f.format⟩ with
    | (.ok (), device) => (.done, { b with device })
    | (.error e, device) => (.refused e, { b with device })

/-- The first round of one worker. -/
def firstRound (b : DeviceBench) (h : Handle) (k : Nat) : DeviceBench :=
  match b.feeds[k]? with
  | none => b
  | some f =>
    match b.device.iterate h f with
    | .ok (device, f) => ⟨device, b.feeds.set k f⟩
    | .error _ => b

/-- Lets every worker that has not pulled yet do so. -/
def settle (b : DeviceBench) : DeviceBench :=
  b.device.freshWorkers.foldl (fun b w => b.firstRound w.1 w.2) b

def commit (b : DeviceBench) (k : Nat) (edits : List Edit) : Reply × DeviceBench :=
  match b.feeds[k]? with
  | none => (.nothing, b)
  | some f =>
    let (reply, bench) := FeedBench.step ⟨f, []⟩ (.commit edits)
    (.feed reply, { b with feeds := b.feeds.set k bench.feed })

def call (b : DeviceBench) : Step → Reply × DeviceBench
  | .create bytes =>
    match b.device.create bytes with
    | (.ok h, device) => (.created h, { b with device })
    | (.error e, device) => (.refused e, { b with device })
  | .register h k => b.register h k
  | .setGain h gain => (.done, { b with device := b.device.setGain h gain })
  | .start h rate stereo =>
    match b.device.start h rate stereo with
    | .ok (period, device) => (.started period, { b with device })
    | .error f => (.notStarted f, b)
  | .stop h => (.done, { b with device := b.device.stop h })
  | .destroy h => (.done, { b with device := b.device.destroy h })
  | .commit k edits => b.commit k edits
  | .capabilities => (.capabilities b.device.capabilities, b)

/-- Does one step, to the point where all workers are idle. -/
def step (b : DeviceBench) (s : Step) : Reply × DeviceBench :=
  let (reply, b) := b.call s
  (reply, b.settle)

/-- The bench after a look at what was recorded. -/
def afterLook (b : DeviceBench) : DeviceBench :=
  { b with device := { b.device with recorded := #[] } }

end DeviceBench

end Playout

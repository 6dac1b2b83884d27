import Playout.Simulator

/-!
# Scripted hardware

A transport for trying out sessions.  It notes every call when it arrives, fails the calls it is
told to fail, and otherwise either hands out handles and nothing else, or passes the call on to a
simulated device.
-/

namespace Playout

namespace Hardware

/-- A device worked by hand: its handles count up, and only the script pulls. -/
structure Manual where
  capabilities : Capabilities
  -- The number of the next handle.
  nextId : UInt32
  -- Whether the feed stays attached when its stream is destroyed.
  keep : Bool
deriving DecidableEq, Repr

/-- What answers the calls that do not fail. -/
inductive Device where
  | manual (m : Manual)
  | simulated (d : Simulator)
deriving DecidableEq, Repr

inductive Event where
  -- A call arrived.
  | call (c : TransportCall)
  -- The simulated device started a stream with this period, or had already started it.
  | period (d : Option Duration)
deriving DecidableEq, Repr

/-- The calls that can be told to fail. -/
inductive Stage where
  | create
  | register
  | start
deriving DecidableEq, Repr

/-- Which calls fail, and how. -/
structure Failures where
  create : Option Refusal
  register : Option Refusal
  start : Option Refusal
deriving DecidableEq, Repr

def Failures.none : Failures := ⟨.none, .none, .none⟩

/-- The failures with those of one call replaced. -/
def Failures.set (f : Failures) (s : Stage) (e : Option Refusal) : Failures :=
  match s with
  | .create => { f with create := e }
  | .register => { f with register := e }
  | .start => { f with start := e }

end Hardware

structure Hardware where
  device : Hardware.Device
  failures : Hardware.Failures
  -- The feed that the script pulls from.
  attached : Option Nat
  -- The feed registered last, attached or not.
  registered : Option Nat
  -- What has been noted since the last look, oldest first.
  events : Array Hardware.Event
deriving DecidableEq, Repr

namespace Hardware

def new (device : Device) (failures : Failures) : Hardware :=
  ⟨device, failures, none, none, #[]⟩

def note (w : Hardware) (e : Event) : Hardware := { w with events := w.events.push e }

def capabilities (w : Hardware) : Capabilities :=
  match w.device with
  | .manual m => m.capabilities
  | .simulated d => d.capabilities

/-- Changes what the device plays.  A simulated device keeps what it was made with. -/
def setCapabilities (w : Hardware) (t : Capabilities) : Hardware :=
  match w.device with
  | .manual m => { w with device := .manual { m with capabilities := t } }
  | .simulated _ => w

def create (w : Hardware) (bytes : Nat) : Except Refusal Handle × Hardware :=
  let w := w.note (.call (.create bytes))
  match w.failures.create with
  | some e => (.error e, w)
  | none =>
    match w.device with
    | .manual m =>
      (.ok ⟨m.nextId⟩, { w with device := .manual { m with nextId := m.nextId + 1 } })
    | .simulated d =>
      let (r, d) := d.create bytes
      (r, { w with device := .simulated d })

def attach (w : Hardware) (feed : FeedRef) : Hardware :=
  { w with attached := some feed.number, registered := some feed.number }

def register (w : Hardware) (h : Handle) (feed : FeedRef) :
    Except Refusal Unit × Hardware :=
  let w := w.note (.call (.register h))
  match w.failures.register with
  | some e => (.error e, w)
  | none =>
    match w.device with
    | .manual _ => (.ok (), w.attach feed)
    | .simulated d =>
      match d.register h feed with
      | (.ok (), d) => (.ok (), { w with device := .simulated d }.attach feed)
      | (.error e, d) => (.error e, { w with device := .simulated d })

def setGain (w : Hardware) (h : Handle) (gain : Gain) : Hardware :=
  let w := w.note (.call (.setGain h gain))
  match w.device with
  | .manual _ => w
  | .simulated d => { w with device := .simulated (d.setGain h gain) }

def start (w : Hardware) (h : Handle) (rate : UInt32) (stereo : Bool) :
    Except Refusal Unit × Hardware :=
  let w := w.note (.call (.start h rate stereo))
  match w.failures.start with
  | some e => (.error e, w)
  | none =>
    match w.device with
    | .manual _ => (.ok (), w)
    | .simulated d =>
      match d.startOrRefuse h rate stereo with
      | (.ok period, d) => (.ok (), { w with device := .simulated d }.note (.period period))
      | (.error e, d) => (.error e, { w with device := .simulated d })

def stop (w : Hardware) (h : Handle) : Hardware :=
  let w := w.note (.call (.stop h))
  match w.device with
  | .manual _ => w
  | .simulated d => { w with device := .simulated (d.stop h) }

/-- Gives a stream up, and its feed unless that is kept.  A simulated device keeps none. -/
def destroy (w : Hardware) (h : Handle) : Hardware :=
  let w := w.note (.call (.destroy h))
  match w.device with
  | .manual m => if m.keep then w else { w with attached := none }
  | .simulated d => { w with device := .simulated (d.destroy h), attached := none }

instance : Transport Hardware := ⟨capabilities, create, register, setGain, start, stop, destroy⟩

/-- The hardware after a look: nothing noted and, on a simulated device, nothing recorded. -/
def afterLook (w : Hardware) : Hardware :=
  let w := { w with events := #[] }
  match w.device with
  | .manual _ => w
  | .simulated d => { w with device := .simulated { d with recorded := #[] } }

end Hardware

end Playout

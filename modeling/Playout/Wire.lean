import Playout.Capabilities
import Playout.Settings
import Playout.Contract
import Playout.Counters
import Playout.Json.Reader
import Playout.Json.Writer

/-!
# The written form of settings and readings

Formats, capabilities, settings and readings can be written as JSON and read back.  A record is
written with its fields in order; it may be read from an object, where unknown fields are passed
over, or from a list of exactly its fields.  A choice is its name, or an object with its name and
content.
-/

namespace Playout

/-- A type with a written form. -/
class Wire (α : Type) where
  encode : α → Json
  decode? : Json → Option α

namespace Wire

/-! ## 1. Fields -/

/-- The values of the named fields among the members of an object, each if it is there.  A key that
is no text, or a named field that comes twice, makes the object unreadable. -/
def pick (names : List String) (members : List (Option String × Json)) :
    Option (List (Option Json)) :=
  if members.all (·.1.isSome) then
    names.mapM fun name =>
      match members.filter (·.1 == some name) with
      | [] => some none
      | [m] => some (some m.2)
      | _ :: _ :: _ => none
  else none

/-- The values of the named fields of a record. -/
def fields? (names : List String) : Json → Option (List (Option Json))
  | .list items => if items.length = names.length then some (items.map some) else none
  | .record members => pick names members
  | _ => none

/-- The values of the named fields of a record that has no others. -/
def onlyFields? (names : List String) : Json → Option (List (Option Json))
  | .record members =>
    if members.all fun m => m.1.any names.contains then pick names members else none
  | v => fields? names v

/-- The value of a field that has to be there. -/
def required {α : Type} [Wire α] (v : Option Json) : Option α := v.bind decode?

/-- The value of a field that may be missing or null. -/
def optional {α : Type} [Wire α] : Option Json → Option (Option α)
  | none | some .null => some none
  | some v => (decode? v).map some

/-- The name and the content of a choice. -/
def choice? : Json → Option (String × Option Json)
  | .text name => some (name, none)
  | .record [(some name, content)] => some (name, some content)
  | _ => none

/-- A choice without content, found by its name. -/
def bareChoice? {α : Type} (all : List α) (name : α → String) (v : Json) : Option α :=
  match choice? v with
  | some (s, none) | some (s, some .null) => all.find? (name · == s)
  | _ => none

/-- A number that fits a word. -/
def bounded? (limit : Nat) : Json → Option Nat
  | .number n => if n < limit then some n else none
  | _ => none

/-! ## 2. Words -/

instance : Wire Bool where
  encode := .bool
  decode?
    | .bool b => some b
    | _ => none

instance : Wire UInt8 where
  encode n := .number n.toNat
  decode? v := (bounded? UInt8.size v).map UInt8.ofNat

instance : Wire UInt32 where
  encode n := .number n.toNat
  decode? v := (bounded? UInt32.size v).map UInt32.ofNat

instance : Wire UInt64 where
  encode n := .number n.toNat
  decode? v := (bounded? wordLimit v).map UInt64.ofNat

/-- What may be missing is null. -/
instance {α : Type} [Wire α] : Wire (Option α) where
  encode
    | none => .null
    | some x => encode x
  decode? v := optional (some v)

/-- Seconds and nanoseconds, and no other fields.  Whole seconds among the nanoseconds carry. -/
instance : Wire Duration where
  encode d :=
    .record [(some "secs", .number d.seconds), (some "nanos", .number d.subsecond)]
  decode? v :=
    match onlyFields? ["secs", "nanos"] v with
    | some [secs, nanos] => do
      let s : UInt64 ← required secs
      let n : UInt32 ← required nanos
      Duration.ofParts? s.toNat n.toNat
    | _ => none

/-! ## 3. Choices -/

def encodingName : Encoding → String
  | .pcm16 => "Pcm16"
  | .pcm8 => "Pcm8"
  | .adpcm4 => "Adpcm4"

instance : Wire Encoding where
  encode e := .text (encodingName e)
  decode? := bareChoice? Encoding.all encodingName

def layoutName : Layout → String
  | .mono => "Mono"
  | .stereo => "Stereo"

instance : Wire Layout where
  encode c := .text (layoutName c)
  decode? := bareChoice? Layout.all layoutName

def layoutsName : Layouts → String
  | .mono => "Mono"
  | .stereo => "Stereo"
  | .both => "Both"

instance : Wire Layouts where
  encode s := .text (layoutsName s)
  decode? := bareChoice? [.mono, .stereo, .both] layoutsName

def fallbackName : Fallback → String
  | .replay => "Stale"
  | .silence => "Silence"

instance : Wire Fallback where
  encode p := .text (fallbackName p)
  decode? := bareChoice? Fallback.all fallbackName

def waitModeName : WaitMode → String
  | .wakeup => "Park"
  | .polling => "Poll"

instance : Wire WaitMode where
  encode s := .text (waitModeName s)
  decode? := bareChoice? WaitMode.all waitModeName

def sessionStateName : SessionState → String
  | .closed => "Closed"
  | .opened => "Opened"
  | .playing => "Playing"
  | .paused => "Paused"

instance : Wire SessionState where
  encode s := .text (sessionStateName s)
  decode? := bareChoice? SessionState.all sessionStateName

instance : Wire Rates where
  encode
    | .any => .text "Any"
    | .fixed rate => .record [(some "Fixed", encode rate)]
    | .range lo hi =>
      .record [(some "Range", .record [(some "min", encode lo), (some "max", encode hi)])]
  decode? v :=
    match choice? v with
    | some ("Any", none) | some ("Any", some .null) => some .any
    | some ("Fixed", some rate) => (decode? rate).map .fixed
    | some ("Range", some range) =>
      match fields? ["min", "max"] range with
      | some [lo, hi] => do some (.range (← required lo) (← required hi))
      | _ => none
    | _ => none

/-! ## 4. Records -/

instance : Wire Gain where
  encode g := encode g.level
  decode? v := (decode? v).map Gain.mk

instance : Wire Format where
  encode f :=
    .record [(some "encoding", encode f.encoding), (some "channels", encode f.layout),
      (some "frame_rate", encode f.frameRate)]
  decode? v :=
    match fields? ["encoding", "channels", "frame_rate"] v with
    | some [e, c, r] => do some ⟨← required e, ← required c, ← required r⟩
    | _ => none

instance : Wire Capability where
  encode c := .record [(some "channels", encode c.layouts), (some "rate", encode c.rates)]
  decode? v :=
    match fields? ["channels", "rate"] v with
    | some [c, r] => do some ⟨← required c, ← required r⟩
    | _ => none

/-- A table is a list with an entry for each encoding, in table order. -/
instance : Wire Capabilities where
  encode t := .list [encode t.pcm16, encode t.pcm8, encode t.adpcm4]
  decode?
    | .list [a, b, c] => do some ⟨← decode? a, ← decode? b, ← decode? c⟩
    | _ => none

instance : Wire Reading where
  encode d :=
    .record [(some "pulls", encode d.pulls), (some "delivered_bytes", encode d.deliveredBytes),
      (some "underruns", encode d.underruns), (some "stalls", encode d.stalls)]
  decode? v :=
    match fields? ["pulls", "delivered_bytes", "underruns", "stalls"] v with
    | some [p, b, u, s] => do
      some ⟨← required p, ← required b, ← required u, ← required s⟩
    | _ => none

def settingNames : List String :=
  ["encoding", "double_buffered", "gain", "frame_count", "alignment", "underrun_policy",
    "wait_strategy", "poll_interval", "stall_threshold", "realtime_priority"]

instance : Wire Settings where
  encode c :=
    .record [(some "encoding", encode c.encoding),
      (some "double_buffered", encode c.doubleBuffered),
      (some "gain", encode c.gain), (some "frame_count", encode c.frameCount),
      (some "alignment", encode c.alignment), (some "underrun_policy", encode c.fallback),
      (some "wait_strategy", encode c.waitMode), (some "poll_interval", encode c.pollInterval),
      (some "stall_threshold", encode c.stallThreshold),
      (some "realtime_priority", encode c.realtimePriority)]
  decode? v :=
    match fields? settingNames v with
    | some [encoding, double, gain, frames, align, fallback, mode, interval, stall, realtime] => do
      some {
        encoding := ← optional encoding
        doubleBuffered := ← required double
        gain := ← required gain
        frameCount := ← required frames
        alignment := ← required align
        fallback := ← required fallback
        waitMode := ← required mode
        pollInterval := ← required interval
        stallThreshold := ← optional stall
        realtimePriority := ← required realtime }
    | _ => none

/-! ## 5. Text -/

def write {α : Type} [Wire α] (x : α) : String := (encode x).render

def read? (α : Type) [Wire α] (s : String) : Option α := (Json.parse? s).bind decode?

end Wire

end Playout

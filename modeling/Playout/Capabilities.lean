import Playout.Format

/-!
# What a device can play

For each encoding a device either refuses it or states a `Capability`: the channel layouts and the
frame rates it takes.  `resolve` answers a request with what will really be played.
-/

namespace Playout

/-! ## 1. Layouts and rates -/

/-- The channel layouts a device takes. -/
inductive Layouts where
  | mono
  | stereo
  | both
deriving DecidableEq, Repr, Inhabited

namespace Layouts

def name : Layouts → String
  | .mono => "mono"
  | .stereo => "stereo"
  | .both => "both"

/-- The layout that a request is played with.  Mono is widened where only stereo is taken and the
samples can be copied; stereo is never folded into mono. -/
def resolve (s : Layouts) (requested : Layout) (e : Encoding) : Option Layout :=
  match s, requested with
  | .both, c => some c
  | .mono, .mono => some .mono
  | .stereo, .stereo => some .stereo
  | .stereo, .mono => if e.isLinear then some .stereo else none
  | .mono, .stereo => none

end Layouts

/-- The frame rates a device takes. -/
inductive Rates where
  -- Any rate but zero.
  | any
  -- One rate only; requests are coerced to it.
  | fixed (rate : UInt32)
  -- Every rate from `min` to `max`; requests are clamped.  When `max` is below `min`, only `min`
  -- is left.
  | range (min max : UInt32)
deriving DecidableEq, Repr, Inhabited

/-- The value nearest to `x` between `lo` and the larger of `lo` and `hi`. -/
def clampRate (lo hi x : UInt32) : UInt32 :=
  let top := if hi < lo then lo else hi
  if x < lo then lo else if top < x then top else x

namespace Rates

/-- The rate that a request is played at. -/
def resolve (s : Rates) (requested : UInt32) : UInt32 :=
  match s with
  | .any => requested
  | .fixed rate => rate
  | .range lo hi => clampRate lo hi requested

end Rates

/-! ## 2. Capabilities by encoding -/

/-- How a device takes one encoding. -/
@[ext] structure Capability where
  layouts : Layouts
  rates : Rates
deriving DecidableEq, Repr, Inhabited

namespace Capability

def unrestricted : Capability := ⟨.both, .any⟩

end Capability

/-- How a device takes each encoding, if it takes it at all. -/
@[ext] structure Capabilities where
  pcm16 : Option Capability := none
  pcm8 : Option Capability := none
  adpcm4 : Option Capability := none
deriving DecidableEq, Repr

namespace Capabilities

def empty : Capabilities := {}

/-- Both linear encodings, unrestricted. -/
def linear : Capabilities :=
  { pcm16 := some .unrestricted, pcm8 := some .unrestricted }

/-- Every encoding, unrestricted. -/
def all : Capabilities := ⟨some .unrestricted, some .unrestricted, some .unrestricted⟩

instance : Inhabited Capabilities := ⟨linear⟩

def get? (t : Capabilities) : Encoding → Option Capability
  | .pcm16 => t.pcm16
  | .pcm8 => t.pcm8
  | .adpcm4 => t.adpcm4

/-- The table with the entry of `e` replaced. -/
def put (t : Capabilities) (e : Encoding) (c : Option Capability) : Capabilities :=
  match e with
  | .pcm16 => { t with pcm16 := c }
  | .pcm8 => { t with pcm8 := c }
  | .adpcm4 => { t with adpcm4 := c }

def insert (t : Capabilities) (e : Encoding) (c : Capability) : Capabilities :=
  t.put e (some c)

def erase (t : Capabilities) (e : Encoding) : Capabilities := t.put e none

def supports (t : Capabilities) (e : Encoding) : Bool := (t.get? e).isSome

def isEmpty (t : Capabilities) : Bool := Encoding.all.all fun e => (t.get? e).isNone

theorem get?_put (t : Capabilities) (e e' : Encoding) (c : Option Capability) :
    (t.put e c).get? e' = if e' = e then c else t.get? e' := by
  cases e <;> cases e' <;> rfl

@[simp] theorem get?_insert_self (t : Capabilities) (e : Encoding) (c : Capability) :
    (t.insert e c).get? e = some c := by
  simp [insert, get?_put]

theorem get?_insert_of_ne (t : Capabilities) {e e' : Encoding} (c : Capability) (h : e' ≠ e) :
    (t.insert e c).get? e' = t.get? e' := by
  simp [insert, get?_put, h]

@[simp] theorem get?_erase_self (t : Capabilities) (e : Encoding) :
    (t.erase e).get? e = none := by
  simp [erase, get?_put]

theorem get?_erase_of_ne (t : Capabilities) {e e' : Encoding} (h : e' ≠ e) :
    (t.erase e).get? e' = t.get? e' := by
  simp [erase, get?_put, h]

end Capabilities

end Playout

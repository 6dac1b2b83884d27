/-!
# Samples: how one moment of sound is laid out

An `Encoding` says how many bits one sample of one channel takes, and a `Layout` how many samples
make one frame.  Both are closed lists, so every question about them is a table.
-/

namespace Playout

/-! ## 1. Encodings -/

/-- How one sample is written down.  The order of the constructors is the order of comparison and
of every per-encoding table. -/
inductive Encoding where
  -- Signed 16-bit linear samples.
  | pcm16
  -- Signed 8-bit linear samples.
  | pcm8
  -- 4-bit companded samples, two to a byte.
  | adpcm4
deriving DecidableEq, Repr, Inhabited, Ord

namespace Encoding

def all : List Encoding := [.pcm16, .pcm8, .adpcm4]

/-- The order in which a device's encodings are tried, most faithful first. -/
def preference : List Encoding := [.pcm16, .pcm8, .adpcm4]

/-- The bits one sample of one channel occupies. -/
def bits : Encoding → Nat
  | .pcm16 => 16
  | .pcm8 => 8
  | .adpcm4 => 4

/-- A linear encoding has samples that stand on their own and can be copied one by one. -/
def isLinear : Encoding → Bool
  | .pcm16 | .pcm8 => true
  | .adpcm4 => false

/-- The position in a per-encoding table. -/
def index : Encoding → Nat
  | .pcm16 => 0
  | .pcm8 => 1
  | .adpcm4 => 2

def name : Encoding → String
  | .pcm16 => "pcm16"
  | .pcm8 => "pcm8"
  | .adpcm4 => "adpcm4"

/-- Reads a name exactly as `name` writes it. -/
def ofName? (s : String) : Option Encoding := all.find? (·.name == s)

theorem bits_pos (e : Encoding) : 0 < e.bits := by cases e <;> decide

theorem mem_preference (e : Encoding) : e ∈ preference := by cases e <;> decide

/-- Linear samples fill whole bytes. -/
theorem bits_eq_of_isLinear {e : Encoding} (h : e.isLinear = true) : e.bits = 8 * (e.bits / 8) := by
  cases e <;> first | rfl | cases h

end Encoding

/-! ## 2. Layouts -/

/-- How many samples make one frame. -/
inductive Layout where
  | mono
  | stereo
deriving DecidableEq, Repr, Inhabited, Ord

namespace Layout

def all : List Layout := [.mono, .stereo]

def count : Layout → Nat
  | .mono => 1
  | .stereo => 2

def isStereo : Layout → Bool
  | .mono => false
  | .stereo => true

def name : Layout → String
  | .mono => "mono"
  | .stereo => "stereo"

/-- The layout with that many channels; there is one for 1 and for 2 only. -/
def ofCount? : Nat → Option Layout
  | 1 => some .mono
  | 2 => some .stereo
  | _ => none

theorem count_pos (c : Layout) : 0 < c.count := by cases c <;> decide

theorem ofCount?_count (c : Layout) : ofCount? c.count = some c := by cases c <;> rfl

end Layout

end Playout

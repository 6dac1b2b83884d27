import Playout.Sample
import Playout.Duration

/-!
# Audio formats

A `Format` fixes the encoding, the channel layout and the frame rate, and with them the two measures
everything else is built on: how many bytes a number of frames takes, and how long it plays.
-/

namespace Playout

/-- What a stretch of audio is made of.  Formats compare field by field, in this order. -/
@[ext] structure Format where
  encoding : Encoding
  layout : Layout
  -- Frames per second.
  frameRate : UInt32
deriving DecidableEq, Repr, Inhabited, Ord

namespace Format

/-- 16-bit stereo at 44.1 kHz. -/
def standard : Format := ⟨.pcm16, .stereo, 44100⟩

def withLayout (f : Format) (c : Layout) : Format := { f with layout := c }

/-- The bits one frame occupies: a sample for each channel. -/
def frameBits (f : Format) : Nat := f.encoding.bits * f.layout.count

/-- The bytes that `frames` frames occupy, the last one filled up when frames are smaller than a
byte.  There is no answer when the number of bits does not fit a machine word. -/
def byteSize? (f : Format) (frames : Nat) : Option Nat :=
  if frames * f.frameBits < wordLimit then some ((frames * f.frameBits + 7) / 8) else none

/-- How long `frames` frames play, rounded down to a nanosecond and capped at 64 bits of them.
At a rate of zero nothing plays. -/
def playTime (f : Format) (frames : Nat) : Duration :=
  if f.frameRate = 0 then .zero
  else .ofNanosSaturating (frames * nanosPerSecond / f.frameRate.toNat)

/-- The text of a format, such as `pcm16/stereo/44100Hz`. -/
def render (f : Format) : String :=
  f.encoding.name ++ "/" ++ f.layout.name ++ "/" ++ toString f.frameRate.toNat ++ "Hz"

instance : ToString Format := ⟨render⟩

theorem frameBits_pos (f : Format) : 0 < f.frameBits :=
  Nat.mul_pos f.encoding.bits_pos f.layout.count_pos

/-- The byte size is the least number of bytes that holds all bits. -/
theorem byteSize?_eq_some {f : Format} {frames bytes : Nat} (h : f.byteSize? frames = some bytes) :
    frames * f.frameBits ≤ bytes * 8 ∧ bytes * 8 < frames * f.frameBits + 8 := by
  unfold byteSize? at h
  split at h
  · injection h with h
    omega
  · cases h

theorem byteSize?_eq_none_iff {f : Format} {frames : Nat} :
    f.byteSize? frames = none ↔ wordLimit ≤ frames * f.frameBits := by
  unfold byteSize?
  split <;> simp <;> omega

end Format

end Playout

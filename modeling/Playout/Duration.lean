import Playout.Word

/-!
# Durations

A span of time in whole nanoseconds, with a 64-bit count of seconds.  The bound is part of the type,
so every operation that could leave it says so in its result.
-/

namespace Playout

def nanosPerSecond : Nat := 1000000000

/-- The first number of nanoseconds that no duration holds: `wordLimit` seconds. -/
def durationLimit : Nat := wordLimit * nanosPerSecond

/-- A span of time, less than `wordLimit` seconds long. -/
@[ext] structure Duration where
  -- The length in nanoseconds.
  nanos : Nat
  nanos_lt : nanos < durationLimit
deriving DecidableEq, Repr

namespace Duration

instance : Inhabited Duration := ⟨⟨0, by decide⟩⟩

def zero : Duration := ⟨0, by decide⟩

/-- The duration of that many nanoseconds, or the longest one that 64 bits of nanoseconds hold. -/
def ofNanosSaturating (n : Nat) : Duration :=
  ⟨min n (wordLimit - 1), by unfold durationLimit nanosPerSecond wordLimit; omega⟩

/-- The duration of that many nanoseconds, if there is one. -/
def ofNanos? (n : Nat) : Option Duration :=
  if h : n < durationLimit then some ⟨n, h⟩ else none

def seconds (d : Duration) : Nat := d.nanos / nanosPerSecond

def subsecond (d : Duration) : Nat := d.nanos % nanosPerSecond

/-- Seconds and nanoseconds together; whole seconds among the nanoseconds carry over. -/
def ofParts? (seconds nanos : Nat) : Option Duration :=
  ofNanos? (seconds * nanosPerSecond + nanos)

/-- The duration `k` times as long, if 64 bits of seconds still hold it. -/
def times? (d : Duration) (k : Nat) : Option Duration := ofNanos? (d.nanos * k)

theorem seconds_lt (d : Duration) : d.seconds < wordLimit := by
  have := d.nanos_lt
  unfold durationLimit at this
  unfold seconds
  exact Nat.div_lt_of_lt_mul (by rw [Nat.mul_comm]; exact this)

theorem subsecond_lt (d : Duration) : d.subsecond < nanosPerSecond :=
  Nat.mod_lt _ (by decide)

/-- Splitting a duration and putting the parts together gives it back. -/
theorem ofParts?_seconds_subsecond (d : Duration) : ofParts? d.seconds d.subsecond = some d := by
  have h : d.seconds * nanosPerSecond + d.subsecond = d.nanos := by
    unfold seconds subsecond
    rw [Nat.mul_comm]
    exact Nat.div_add_mod _ _
  simp [ofParts?, ofNanos?, h, d.nanos_lt]

end Duration

end Playout

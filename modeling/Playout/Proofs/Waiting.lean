import Playout.Proofs.Occupancy

/-!
# Waiting by the clock

A call that has to wait spins for a moment, and then rests again and again, for as long as something
stands in its way.  After each rest it looks at the clock, and once its wait has taken longer than the
stall threshold it remembers that.  `borrow` can have to wait more than once: when the way is clear it
tries to take its slot, and a device may have been faster.  A `Timed` playback does all this, and its
log tells of each call how long it waited.

As in `Playback.play`, devices also act between a first hand-over and a start that fails, and slots
are given back at the wrong time.
-/

namespace Playout

/-! ## 1. Waits -/

/-- One wait of a call. -/
structure Wait where
  -- The nanoseconds since it stopped spinning, by its last look at the clock.
  elapsed : Nat
  -- Whether it has found the threshold exceeded.
  stalled : Bool
deriving DecidableEq, Repr

namespace Wait

def begun : Wait := ⟨0, false⟩

/-- Rests and looks at the clock. -/
def rest (limit : Nat) (w : Wait) (nanos : Nat) : Wait :=
  ⟨w.elapsed + nanos, w.stalled || decide (limit < w.elapsed + nanos)⟩

/-- A wait remembers a stall exactly if it has taken longer than the threshold. -/
def Honest (limit : Nat) (w : Wait) : Prop := w.stalled = decide (limit < w.elapsed)

variable {limit : Nat} {w : Wait}

theorem honest_begun (limit : Nat) : begun.Honest limit := by simp [Honest, begun]

-- What has been exceeded stays exceeded.
theorem Honest.rest (h : w.Honest limit) (nanos : Nat) : (w.rest limit nanos).Honest limit := by
  unfold Honest at h ⊢
  simp only [Wait.rest, h]
  by_cases hlong : limit < w.elapsed
  · simp [hlong, Nat.lt_of_lt_of_le hlong (Nat.le_add_right _ _)]
  · simp [hlong]

end Wait

/-! ## 2. The system -/

/-- What the log tells. -/
inductive Entry where
  -- An event, and after it the stall threshold of the open stream in nanoseconds.
  | event (e : Event) (limit : Nat)
  -- A call on the stream of that feed has waited for the last time, and so long each time.
  | waited (feed : Nat) (nanos : List Nat)

namespace Playback

variable {τ : Type}

/-- The stall threshold of the open stream, in nanoseconds. -/
def threshold (p : Playback τ) : Nat :=
  match p.session.stream with
  | some st => st.stallThreshold.nanos
  | none => 0

/-- The stream of the call that is under way, and whether something stands in its way. -/
def pending? (p : Playback τ) : Option (Nat × Bool) :=
  match p.producer, p.session.stream with
  | .waiting c, some st => some (st.number, st.blocks c)
  | _, _ => none

/-- A commit that has waited finds no buffer to hand over, and a check fails. -/
def fail (p : Playback τ) (stalled : Bool) : List Event × Playback τ :=
  match p.producer, p.session.stream with
  | .waiting .commit, some st =>
    if st.feed.handshake.state st.feed.handshake.active = .filling then ([], p)
    else
      ([.fault (.defect .handOver)],
        { p with
          session := p.session.setStream (st.countStall stalled)
          producer := .free
          lent := none })
  | _, _ => ([], p)

end Playback

/-- A playback whose producer has a clock. -/
structure Timed (τ : Type) where
  playback : Playback τ
  -- The waits of the last call that are over.
  waits : List Wait
  -- The wait that is under way.
  wait : Option Wait

namespace Timed

/-- How a call goes on that need not wait any longer. -/
inductive Way where
  -- It is finished.
  | finish
  -- It hands the first buffer over and leaves the start for later.
  | handOver
  -- It is a commit without a buffer to hand over, and a check fails.
  | fail
  -- The same, but nobody checks.
  | proceed

/-- What can happen next. -/
inductive Action where
  | device (feed : Nat) (c : ConsumerStep)
  -- Somebody gives a slot back, whoever reads it.
  | stray (feed : Nat) (s : Slot)
  | command (c : Command)
  -- The call under way looks whether it can go on, and goes on if it can.
  | look (w : Way)
  -- The wait under way rests for so long.
  | rest (nanos : Nat)
  -- The start that was left for later succeeds.
  | launch
  -- It fails.
  | refuse

variable {τ : Type}

def new (transport : τ) (settings : Settings) : Timed τ := ⟨.new transport settings, [], none⟩

/-- Whether the waits of the call add up to a stall: one is enough, and more make no difference. -/
def hasStalled (m : Timed τ) : Bool := m.waits.any (·.stalled)

/-- The entry of a call whose waiting is over. -/
def waited (m : Timed τ) (q : Playback τ) : List Entry :=
  match m.playback.pending?, q.pending? with
  | some (k, _), none => [.waited k (m.waits.map (·.elapsed))]
  | _, _ => []

/-- Writes down what has come of an action of the playback. -/
def log (m : Timed τ) (r : List Event × Playback τ) : List Entry × Timed τ :=
  (r.1.map (.event · r.2.threshold) ++ m.waited r.2, { m with playback := r.2 })

variable [Transport τ]

/-- Goes on with the call under way. -/
def goOn (m : Timed τ) : Way → List Event × Playback τ
  | .finish => m.playback.finish m.hasStalled
  | .handOver => m.playback.handOver m.hasStalled
  | .fail => m.playback.fail m.hasStalled
  | .proceed => m.playback.proceed m.hasStalled

def step (m : Timed τ) : Action → List Entry × Timed τ
  | .device k c => m.log (m.playback.step (.device k c))
  | .stray k s => m.log ([], m.playback.stray k s)
  | .command c =>
    match m.playback.producer with
    | .free => log { m with waits := [], wait := none } (m.playback.command c)
    | _ => ([], m)
  | .look way =>
    match m.playback.pending?, m.wait with
    -- something still stands in the way, or does for the first time
    | some (_, true), some _ => ([], m)
    | some (_, true), none => ([], { m with wait := some .begun })
    -- the wait is over, and whatever it was for is tried
    | some (_, false), some w => ([], { m with waits := w :: m.waits, wait := none })
    | some (_, false), none => m.log (m.goOn way)
    | none, _ => ([], m)
  | .rest nanos =>
    match m.wait with
    | some w => ([], { m with wait := some (w.rest m.playback.threshold nanos) })
    | none => ([], m)
  | .launch => m.log m.playback.launch
  | .refuse => m.log m.playback.refuse

/-- One action after the other, with the whole log. -/
def run (m : Timed τ) : List Action → List Entry × Timed τ
  | [] => ([], m)
  | a :: rest => ((m.step a).1 ++ ((m.step a).2.run rest).1, ((m.step a).2.run rest).2)

theorem run_induction {motive : List Entry → Timed τ → Prop} {m : Timed τ} (start : motive [] m)
    (next : ∀ log m a, motive log m → motive (log ++ (m.step a).1) (m.step a).2)
    (as : List Action) : motive (m.run as).1 (m.run as).2 := by
  -- the log so far has to be carried along for the induction
  suffices h : ∀ log m, motive log m → motive (log ++ (m.run as).1) (m.run as).2 from h [] m start
  induction as with
  | nil =>
    intro log m hm
    simpa [run] using hm
  | cons a rest ih =>
    intro log m hm
    have hrest := ih (log ++ (m.step a).1) (m.step a).2 (next log m a hm)
    rwa [List.append_assoc] at hrest

end Timed

end Playout

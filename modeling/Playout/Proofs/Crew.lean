import Mathlib.Logic.Function.Basic
import Playout.Proofs.Device
import Playout.Proofs.Feed

/-!
# The workers of a simulated device

`Simulator.iterate` is the round of a worker that nobody disturbs.  Workers run beside each other
and beside the calls, though, and a round is several steps: the pull, the counting of it, the
recording, and the drop.  A `Crew` is a device whose workers are somewhere in their rounds, and its
moves are the single steps, the calls, and whatever else happens to the feeds.

A call that ends a worker waits until that worker has finished its round.
-/

namespace Playout

/-! ## 1. Feeds in use -/

/-- Every buffer that takes part is as long as the silence. -/
def Feed.Uniform (f : Feed) : Prop := ∀ s ∈ f.handshake.members, (f.content s).size = f.bufferBytes

instance (f : Feed) : Decidable f.Uniform :=
  inferInstanceAs (Decidable (∀ s ∈ f.handshake.members, (f.content s).size = f.bufferBytes))

/-- Feeds start out like that. -/
theorem Feed.uniform_ofBuffers (double : Bool) (bytes : Nat) (format : Format)
    (fallback : Fallback) : (Feed.ofBuffers (.zeroed double bytes) format fallback).Uniform := by
  intro s hs
  have hsize : ((Buffers.zeroed double bytes).slots.get s).size = bytes := by
    cases s with
    | a => exact Bytes.size_zeros bytes
    | b =>
      -- the second slot takes part only if there are two
      have hdouble : double = true := (Handshake.mem_members.mp hs).resolve_left (by decide)
      rw [hdouble]
      exact Bytes.size_zeros bytes
  exact hsize.trans (Bytes.size_zeros bytes).symm

/-- What is being read is left alone. -/
structure Feed.Yields (f f' : Feed) : Prop where
  reading : ∀ s, f.handshake.state s = .consumed →
    f'.handshake.state s = .consumed ∧ f'.content s = f.content s
  uniform : f.Uniform → f'.Uniform

namespace Feed.Yields

variable {f f' f'' : Feed} {s : Slot}

theorem trans (h : f.Yields f') (h' : f'.Yields f'') : f.Yields f'' where
  reading t ht := by
    obtain ⟨hstate, hcontent⟩ := h.reading t ht
    obtain ⟨hstate', hcontent'⟩ := h'.reading t hstate
    exact ⟨hstate', hcontent'.trans hcontent⟩
  uniform hf := h'.uniform (h.uniform hf)

theorem startFilling (e : f.startFilling = .ok (s, f')) : f.Yields f' := by
  obtain ⟨-, hfillable, rfl⟩ := startFilling_eq_ok e
  refine ⟨fun t ht => ⟨?_, rfl⟩, id⟩
  have hne : t ≠ f.handshake.active := by
    rintro rfl
    rw [ht] at hfillable
    obtain h | h := hfillable <;> cases h
  rw [handshake_setHandshake, Handshake.state_setState, if_neg hne, ht]

theorem handOver (e : f.handOver = .ok (s, f')) : f.Yields f' := by
  obtain ⟨-, hfilling, rfl⟩ := handOver_eq_ok e
  refine ⟨fun t ht => ⟨?_, rfl⟩, fun hf t ht => ?_⟩
  · have hne : t ≠ f.handshake.active := by
      rintro rfl
      rw [hfilling] at ht
      cases ht
    rw [handshake_setHandshake, Handshake.state_handed, if_neg hne, ht]
  · refine hf t ?_
    rwa [handshake_setHandshake, Handshake.members, Handshake.double_handed] at ht

theorem edit (hs : f.handshake.state s ≠ .consumed) (n : Nat) (es : List Edit) :
    f.Yields (f.edit s n es) := by
  refine ⟨fun t ht => ⟨ht, ?_⟩, fun hf t ht => (f.size_content_edit s t n es).trans (hf t ht)⟩
  rw [content_edit, if_neg]
  rintro rfl
  exact hs ht

/-- What a producer hands over. -/
theorem commit {edits : List Edit} (e : f.commit edits = .ok (s, f')) : f.Yields f' := by
  unfold Feed.commit fill at e
  cases hfill : f.startFilling with
  | error x =>
    rw [hfill] at e
    cases e
  | ok r =>
    obtain ⟨t, g⟩ := r
    rw [hfill] at e
    refine (startFilling hfill).trans ((edit ?_ _ _).trans (handOver e))
    obtain ⟨rfl, -, rfl⟩ := startFilling_eq_ok hfill
    rw [handshake_setHandshake, Handshake.state_setState_self]
    decide

end Feed.Yields

namespace Simulator

/-! ## 2. Where a worker is -/

/-- A pull in the hands of a worker. -/
structure Held where
  pull : Pull
  -- What it showed when it was made.
  data : Bytes
deriving DecidableEq, Repr

/-- How far a worker has come in its round. -/
inductive Stage where
  | resting
  | pulled (x : Held)
  -- The pull is counted.
  | counted (x : Held)
  -- So are its bytes, as it delivered some.
  | measured (x : Held) (hdelivers : x.pull.isUnderrun = false)
  -- Only the drop is left.
  | settled (x : Held)
deriving DecidableEq, Repr

def Stage.held? : Stage → Option Held
  | .resting => none
  | .pulled x | .counted x | .measured x _ | .settled x => some x

/-- A worker, and where it is. -/
structure Hand where
  -- How many have been started before it.
  number : Nat
  -- The feed that it pulls from.
  feed : Nat
  stage : Stage
deriving DecidableEq, Repr

def Hand.reach (a : Hand) (g : Stage) : Hand := { a with stage := g }

/-- The slot that a worker has claimed, after the number of its feed. -/
def Hand.claim? (a : Hand) : Option (Nat × Slot) :=
  (a.stage.held?.bind (·.pull.claimed)).map (a.feed, ·)

/-- What can be told of the workers. -/
inductive Note where
  | started (worker feed : Nat)
  -- A pull, and what it showed.
  | pulled (worker feed : Nat) (p : Pull) (data : Bytes)
  | recorded (worker : Nat) (data : Bytes)
  | left (worker : Nat)
  -- A pull could not be dropped.
  | fault (d : Defect)
deriving DecidableEq, Repr

/-- A device with its workers. -/
structure Crew where
  device : Simulator
  -- For each stream, in its place, its worker if it has one.
  hands : List (Option Hand)
  -- How many have been started.
  hired : Nat
  feeds : Nat → Feed

namespace Crew

def begin (capabilities : Capabilities) (period : Option Duration) (feeds : Nat → Feed) : Crew :=
  ⟨.new capabilities period, [], 0, feeds⟩

/-- The streams with their workers. -/
def entries (v : Crew) : List (Option Hand × Stream) := v.hands.zip v.device.streams

def workers (v : Crew) : List Hand := v.entries.filterMap Prod.fst

/-- No worker is inside a round. -/
def AtRest (v : Crew) : Prop := ∀ a ∈ v.workers, a.stage = .resting

/-! ## 3. Moves -/

/-- The worker that a call ends. -/
def leaving? (v : Crew) : Call → Option Hand
  | .stop h | .destroy h => (v.device.place? h).bind fun i => (v.hands[i]?).join
  | .create _ | .register _ _ | .setGain _ _ | .start _ _ _ => none

/-- The worker that a call starts. -/
def hired? (v : Crew) (c : Call) : Option Hand :=
  match c, (v.device.perform c).1 with
  | .start h _ _, .ok (.started (some _)) =>
    ((v.device.stream? h).bind (·.feed)).map fun feed => ⟨v.hired, feed.number, .resting⟩
  | _, _ => none

/-- A call, or nothing as long as it has to wait for a worker. -/
def call (v : Crew) (c : Call) : List Note × Crew :=
  let d := (v.device.perform c).2
  match v.leaving? c, v.hired? c with
  | some a, _ =>
    if a.stage = .resting then
      ([.left a.number],
        { v with device := d, hands := v.device.beside none (some none) v.hands c })
    else ([], v)
  | none, some a =>
    ([.started a.number a.feed],
      { v with
        device := d
        hands := v.device.beside none (some (some a)) v.hands c
        hired := v.hired + 1 })
  | none, none => ([], { v with device := d, hands := v.device.beside none none v.hands c })

/-- A stream whose worker is gone. -/
def idled (s : Stream) : Stream := { s with worker := none }

/-- The worker at a place goes, once it has finished its round: what becomes of each worker when the
device is shut down. -/
def leave (v : Crew) (i : Nat) : List Note × Crew :=
  match v.device.streams[i]?, v.hands[i]? with
  | some s, some (some a) =>
    if a.stage = .resting then
      ([.left a.number],
        { v with
          device := { v.device with
            streams := v.device.streams.set i (idled s)
            monitor := v.device.monitorWithout s }
          hands := v.hands.set i none })
    else ([], v)
  | _, _ => ([], v)

/-- The crew with a new count, and the worker at a place at a new stage. -/
def tally (v : Crew) (m : Monitor) (i : Nat) (a : Hand) : Crew :=
  { v with device := { v.device with monitor := m }, hands := v.hands.set i (some a) }

/-- The next step of a worker. -/
def advance (v : Crew) (i : Nat) (s : Stream) (a : Hand) : List Note × Crew :=
  let m := v.device.monitor
  let f := v.feeds a.feed
  match a.stage with
  | .resting =>
    let (p, pulled) := f.pull s.bytes
    let again := s.worker.map fun w => { w with rounds := w.rounds + 1 }
    ([.pulled a.number a.feed p (pulled.read p)],
      { v with
        device := { v.device with streams := v.device.streams.set i { s with worker := again } }
        hands := v.hands.set i (some (a.reach (.pulled ⟨p, pulled.read p⟩)))
        feeds := Function.update v.feeds a.feed pulled })
  | .pulled x => ([], v.tally { m with pulls := m.pulls + 1 } i (a.reach (.counted x)))
  | .counted x =>
    if hdelivers : x.pull.isUnderrun = false then
      ([], v.tally { m with deliveredBytes := m.deliveredBytes + UInt64.ofNat x.pull.delivered } i
        (a.reach (.measured x hdelivers)))
    else ([], v.tally { m with underruns := m.underruns + 1 } i (a.reach (.settled x)))
  | .measured x _ =>
    ([.recorded a.number (f.read x.pull)],
      { v with
        device := { v.device with recorded := v.device.recorded.push (f.read x.pull) }
        hands := v.hands.set i (some (a.reach (.settled x))) })
  | .settled x =>
    match f.drop x.pull with
    | .ok dropped =>
      ([], { v with
        hands := v.hands.set i (some (a.reach .resting))
        feeds := Function.update v.feeds a.feed dropped })
    | .error e => ([.fault e], v)

/-- The next step of the worker at a place, if there is one. -/
def work (v : Crew) (i : Nat) : List Note × Crew :=
  match v.device.streams[i]?, v.hands[i]? with
  | some s, some (some a) => v.advance i s a
  | _, _ => ([], v)

/-- What others may do to a feed: whatever leaves alone what a worker is reading. -/
def Tolerates (v : Crew) (k : Nat) (f : Feed) : Prop :=
  f.Uniform ∧ ∀ x ∈ v.workers.filterMap Hand.claim?, x.1 = k →
    f.handshake.state x.2 = .consumed ∧ f.content x.2 = (v.feeds k).content x.2

instance (v : Crew) (k : Nat) (f : Feed) : Decidable (v.Tolerates k f) :=
  inferInstanceAs (Decidable (_ ∧ _))

/-- What can happen next. -/
inductive Move where
  | call (c : Call)
  | work (place : Nat)
  | leave (place : Nat)
  -- Others turn a feed into this one.
  | tend (number : Nat) (f : Feed)

def move (v : Crew) : Move → List Note × Crew
  | .call c => v.call c
  | .work i => v.work i
  | .leave i => v.leave i
  | .tend k f =>
    if v.Tolerates k f then ([], { v with feeds := Function.update v.feeds k f }) else ([], v)

/-- One move after the other, with all the notes. -/
def run (v : Crew) : List Move → List Note × Crew
  | [] => ([], v)
  | x :: rest => ((v.move x).1 ++ ((v.move x).2.run rest).1, ((v.move x).2.run rest).2)

theorem run_append (v : Crew) (xs ys : List Move) :
    v.run (xs ++ ys) = ((v.run xs).1 ++ ((v.run xs).2.run ys).1, ((v.run xs).2.run ys).2) := by
  induction xs generalizing v with
  | nil => rfl
  | cons x rest ih => rw [List.cons_append, run, run, ih, List.append_assoc]

/-- What holds before anything happened and survives every move holds after every run. -/
theorem run_induction {motive : List Note → Crew → Prop} {v : Crew} (start : motive [] v)
    (next : ∀ log u x, motive log u → motive (log ++ (u.move x).1) (u.move x).2)
    (xs : List Move) : motive (v.run xs).1 (v.run xs).2 := by
  -- the notes so far have to be carried along for the induction
  suffices h : ∀ log u, motive log u → motive (log ++ (u.run xs).1) (u.run xs).2 from h [] v start
  induction xs with
  | nil =>
    intro log u hu
    simpa [run] using hu
  | cons x rest ih =>
    intro log u hu
    have hrest := ih (log ++ (u.move x).1) (u.move x).2 (next log u x hu)
    rwa [List.append_assoc] at hrest

/-! ## 4. A round that nobody disturbs -/

variable {v : Crew}

theorem work_eq {i : Nat} {s : Stream} {a : Hand} (hs : v.device.streams[i]? = some s)
    (ha : v.hands[i]? = some (some a)) : v.work i = v.advance i s a := by
  simp only [work, hs, ha]

/-- The crew while one of its workers is in a round: what the round has changed so far. -/
def during (v : Crew) (i : Nat) (s : Stream) (a : Hand) (m : Monitor) (tape : Array Bytes)
    (g : Stage) (f : Feed) : Crew where
  device := { v.device with
    streams := v.device.streams.set i s
    monitor := m
    recorded := tape }
  hands := v.hands.set i (some (a.reach g))
  hired := v.hired
  feeds := Function.update v.feeds a.feed f

section

variable {i : Nat} {s : Stream} {a : Hand} {m : Monitor} {tape : Array Bytes} {f : Feed} {x : Held}

theorem work_during (hi : i < v.device.streams.length) (hi' : i < v.hands.length) (g : Stage) :
    (v.during i s a m tape g f).work i = (v.during i s a m tape g f).advance i s (a.reach g) :=
  work_eq (List.getElem?_set_self hi) (List.getElem?_set_self hi')

theorem work_pulled (hi : i < v.device.streams.length) (hi' : i < v.hands.length) :
    ((v.during i s a m tape (.pulled x) f).work i).2 =
      v.during i s a { m with pulls := m.pulls + 1 } tape (.counted x) f := by
  rw [work_during hi hi']
  simp [advance, during, tally, Hand.reach]

theorem work_missed (hi : i < v.device.streams.length) (hi' : i < v.hands.length)
    (hunderrun : x.pull.isUnderrun = true) :
    ((v.during i s a m tape (.counted x) f).work i).2 =
      v.during i s a { m with underruns := m.underruns + 1 } tape (.settled x) f := by
  rw [work_during hi hi']
  simp [advance, during, tally, Hand.reach, hunderrun]

theorem work_counted (hi : i < v.device.streams.length) (hi' : i < v.hands.length)
    (hdelivers : x.pull.isUnderrun = false) :
    ((v.during i s a m tape (.counted x) f).work i).2 =
      v.during i s a { m with deliveredBytes := m.deliveredBytes + UInt64.ofNat x.pull.delivered }
        tape (.measured x hdelivers) f := by
  rw [work_during hi hi']
  simp [advance, during, tally, Hand.reach, hdelivers]

theorem work_measured (hi : i < v.device.streams.length) (hi' : i < v.hands.length)
    (hdelivers : x.pull.isUnderrun = false) :
    ((v.during i s a m tape (.measured x hdelivers) f).work i).2 =
      v.during i s a m (tape.push (f.read x.pull)) (.settled x) f := by
  rw [work_during hi hi']
  simp [advance, during, Hand.reach]

theorem work_settled (hi : i < v.device.streams.length) (hi' : i < v.hands.length) {f' : Feed}
    (hdrop : f.drop x.pull = .ok f') :
    ((v.during i s a m tape (.settled x) f).work i).2 = v.during i s a m tape .resting f' := by
  rw [work_during hi hi']
  simp [advance, during, Hand.reach, hdrop]

end

/-- A round of the worker at a place without a move of anybody else is what `iterate` says. -/
theorem exists_round {h : Handle} {i : Nat} {s : Stream} {w : Worker} {a : Hand}
    (hi : v.device.place? h = some i) (hs : v.device.streams[i]? = some s)
    (hw : s.worker = some w) (ha : v.hands[i]? = some (some a)) (hrest : a.stage = .resting) :
    ∃ n d f, v.device.iterate h (v.feeds a.feed) = .ok (d, f) ∧
      (v.run (List.replicate n (.work i))).2 =
        { v with device := d, feeds := Function.update v.feeds a.feed f } := by
  obtain ⟨f, hdrop⟩ := (v.feeds a.feed).drop_pull_ok s.bytes
  obtain ⟨hlt, hat⟩ := List.getElem?_eq_some_iff.mp ha
  have hlt' := (List.getElem?_eq_some_iff.mp hs).1
  let r := (v.feeds a.feed).pull s.bytes
  let t : Stream := { s with worker := some { w with rounds := w.rounds + 1 } }
  let m := v.device.monitor
  have hback : v.hands.set i (some (a.reach .resting)) = v.hands := by
    rw [Hand.reach, ← hrest, ← hat, List.set_getElem_self]
  have hfirst : (v.work i).2 =
      v.during i t a m v.device.recorded (.pulled ⟨r.1, r.2.read r.1⟩) r.2 := by
    rw [work_eq hs ha]
    simp [advance, hrest, hw, during, r, t, m]
  have hround : v.device.iterate h (v.feeds a.feed) = .ok ({ v.device with
      streams := v.device.streams.set i t
      monitor := m.count r.1
      recorded := if r.1.isUnderrun then v.device.recorded
        else v.device.recorded.push (r.2.read r.1) }, f) := by
    unfold iterate modify
    rw [stream?_of_place? hi, hs]
    simp only [hw, hdrop, updateFirst_eq hi hs]
    rfl
  refine ⟨if r.1.isUnderrun then 4 else 5, _, f, hround, ?_⟩
  cases hunderrun : r.1.isUnderrun with
  | true =>
    simp only [if_true, List.replicate, run, move]
    rw [hfirst, work_pulled hlt' hlt, work_missed hlt' hlt hunderrun, work_settled hlt' hlt hdrop,
      during, hback, Monitor.count, hunderrun]
    rfl
  | false =>
    simp only [Bool.false_eq_true, if_false, List.replicate, run, move]
    rw [hfirst, work_pulled hlt' hlt, work_counted hlt' hlt hunderrun, work_measured hlt' hlt,
      work_settled hlt' hlt hdrop, during, hback, Monitor.count, hunderrun]
    rfl

end Crew

end Simulator

end Playout

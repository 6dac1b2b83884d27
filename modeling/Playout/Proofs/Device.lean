import Mathlib.Data.List.Basic
import Mathlib.Data.List.Perm.Basic
import Playout.Simulator

/-!
# What a call does to a simulated device

A handle names the first stream that has it, and that stream has a place.  Every call either leaves
the device as it is, or puts a stream in the last place, or changes what is at one place, or gives a
place up; `Effect` lists the cases.

Whatever is kept beside the streams, an entry for each, has to move along with them: `beside` says
how, and `zip_at` what one place has to do with all others.
-/

namespace Playout

namespace Simulator

/-! ## 1. Calls -/

/-- A call on a simulated device. -/
inductive Call where
  | create (bytes : Nat)
  | register (h : Handle) (feed : FeedRef)
  | setGain (h : Handle) (gain : Gain)
  | start (h : Handle) (rate : UInt32) (stereo : Bool)
  | stop (h : Handle)
  | destroy (h : Handle)
deriving DecidableEq, Repr

/-- What a call answers that does not fail. -/
inductive Answer where
  | done
  | created (h : Handle)
  -- The period of the worker, or nothing if there was one already.
  | started (period : Option Duration)
deriving DecidableEq, Repr

/-- The handle that a call is given. -/
def Call.handle? : Call → Option Handle
  | .create _ => none
  | .register h _ | .setGain h _ | .start h _ _ | .stop h | .destroy h => some h

/-- What a call answers, and the device after it. -/
def perform (d : Simulator) : Call → Except StartFailure Answer × Simulator
  | .create bytes =>
    match d.create bytes with
    | (.ok h, d) => (.ok (.created h), d)
    | (.error e, d) => (.error (.refused e), d)
  | .register h feed =>
    match d.register h feed with
    | (.ok (), d) => (.ok .done, d)
    | (.error e, d) => (.error (.refused e), d)
  | .setGain h gain => (.ok .done, d.setGain h gain)
  | .start h rate stereo =>
    match d.start h rate stereo with
    | .ok (period, d) => (.ok (.started period), d)
    | .error e => (.error e, d)
  | .stop h => (.ok .done, d.stop h)
  | .destroy h => (.ok .done, d.destroy h)

/-! ## 2. Places -/

/-- The place of the stream that a handle names. -/
def place? (d : Simulator) (h : Handle) : Option Nat := d.streams.findIdx? (·.handle == h)

variable {d : Simulator} {h : Handle} {i : Nat} {s : Stream}

theorem stream?_eq (d : Simulator) (h : Handle) :
    d.stream? h = (d.place? h).bind (d.streams[·]?) :=
  List.find?_eq_bind_findIdx?_getElem?

theorem stream?_of_place? (hi : d.place? h = some i) : d.stream? h = d.streams[i]? := by
  rw [stream?_eq, hi]
  rfl

theorem handle_of_stream? (hs : d.stream? h = some s) : s.handle = h := by
  have hfound := List.find?_some hs
  exact beq_iff_eq.mp hfound

theorem exists_place (hs : d.stream? h = some s) :
    ∃ i, d.place? h = some i ∧ d.streams[i]? = some s := by
  rw [stream?_eq] at hs
  exact Option.bind_eq_some_iff.mp hs

theorem stream?_eq_none_iff : d.stream? h = none ↔ ∀ s ∈ d.streams, s.handle ≠ h := by
  unfold stream?
  simp

theorem place?_eq_none_iff : d.place? h = none ↔ d.stream? h = none := by
  rw [stream?_eq_none_iff]
  unfold place?
  simp

-- The first stream with a property is the one at its place.
theorem updateFirst_eq {p : Stream → Bool} {f : Stream → Stream} {l : List Stream}
    (hi : l.findIdx? p = some i) (hs : l[i]? = some s) : updateFirst p f l = l.set i (f s) := by
  induction l generalizing i with
  | nil => cases hi
  | cons t rest ih =>
    rw [List.findIdx?_cons] at hi
    unfold updateFirst
    split at hi
    next hp =>
      cases hi
      cases hs
      rw [if_pos hp]
      rfl
    next hp =>
      obtain ⟨j, hj, rfl⟩ := Option.map_eq_some_iff.mp hi
      rw [if_neg hp, ih hj hs]
      rfl

/-! ## 3. What becomes of the device -/

/-- The device with one worker less at a place. -/
def monitorWithout (d : Simulator) (s : Stream) : Monitor :=
  { d.monitor with
    workers := d.monitor.workers - UInt64.ofNat (if s.worker.isSome then 1 else 0) }

theorem retire_eq (d : Simulator) (s : Stream) :
    d.retire s = { d with monitor := d.monitorWithout s } := by
  unfold retire monitorWithout
  cases s.worker with
  | none => simp
  | some w => rfl

-- With that worker counted again there are as many as before.
theorem workers_monitorWithout (d : Simulator) (s : Stream) :
    (d.monitorWithout s).workers + UInt64.ofNat (if s.worker.isSome then 1 else 0) =
      d.monitor.workers :=
  UInt64.sub_add_cancel _ _

theorem foldl_retire (d : Simulator) (l : List Stream) :
    l.foldl retire d =
      { d with monitor := { d.monitor with
        workers := d.monitor.workers - UInt64.ofNat (l.countP (·.worker.isSome)) } } := by
  induction l generalizing d with
  | nil => simp
  | cons s rest ih =>
    have hless : ∀ a b c : UInt64, a - b - c = a - (c + b) := by grind
    rw [List.foldl_cons, ih, retire_eq, List.countP_cons, UInt64.ofNat_add, ← hless]
    rfl

theorem shutDown_eq (d : Simulator) :
    d.shutDown =
      { d with
        streams := d.streams.map fun s => { s with worker := none }
        monitor := { d.monitor with
          workers := d.monitor.workers - UInt64.ofNat (d.streams.countP (·.worker.isSome)) } } := by
  rw [shutDown, foldl_retire]

/-- What comes of a call: its answer and the device after it. -/
inductive Effect (d : Simulator) : Call → Except StartFailure Answer × Simulator → Prop where
  | failed (c : Call) (e : StartFailure) : Effect d c (.error e, d)
  -- There is no such stream, and the call does not mind.
  | unknown (c : Call) (h : Handle) (hc : c.handle? = some h) (hs : d.stream? h = none) :
      Effect d c (.ok .done, d)
  -- The stream has been started already.
  | already (h : Handle) (rate : UInt32) (stereo : Bool) (s : Stream) (hs : d.stream? h = some s)
      (hworker : s.worker.isSome) : Effect d (.start h rate stereo) (.ok (.started none), d)
  | created (bytes : Nat) (hroom : d.streams.length < streamLimit) (hbytes : bytes ≠ 0) :
      Effect d (.create bytes) (.ok (.created ⟨d.nextId⟩),
        { d with
          nextId := d.nextId + 1
          streams := d.streams ++ [⟨⟨d.nextId⟩, bytes, none, none⟩] })
  | registered (h : Handle) (feed : FeedRef) (i : Nat) (s : Stream) (hi : d.place? h = some i)
      (hs : d.streams[i]? = some s) :
      Effect d (.register h feed) (.ok .done,
        { d with streams := d.streams.set i { s with feed := some feed } })
  | gained (h : Handle) (gain : Gain) (s : Stream) (hs : d.stream? h = some s) :
      Effect d (.setGain h gain) (.ok .done, { d with monitor := { d.monitor with gain } })
  | started (h : Handle) (rate : UInt32) (stereo : Bool) (i : Nat) (s : Stream) (feed : FeedRef)
      (period : Duration) (hi : d.place? h = some i) (hs : d.streams[i]? = some s)
      (hidle : s.worker = none) (hfeed : s.feed = some feed)
      (hperiod : d.periodFor? s feed rate stereo = some period) :
      Effect d (.start h rate stereo) (.ok (.started (some period)),
        { d with
          streams := d.streams.set i { s with worker := some ⟨period, feed, 0⟩ }
          monitor := { d.monitor with workers := d.monitor.workers + 1 } })
  | stopped (h : Handle) (i : Nat) (s : Stream) (hi : d.place? h = some i)
      (hs : d.streams[i]? = some s) :
      Effect d (.stop h) (.ok .done,
        { d with
          streams := d.streams.set i { s with worker := none }
          monitor := d.monitorWithout s })
  | destroyed (h : Handle) (i : Nat) (s : Stream) (hi : d.place? h = some i)
      (hs : d.streams[i]? = some s) :
      Effect d (.destroy h) (.ok .done,
        { d with streams := swapRemove d.streams i, monitor := d.monitorWithout s })

theorem create_of_full (hfull : streamLimit ≤ d.streams.length) (bytes : Nat) :
    d.create bytes = (.error .noHandle, d) :=
  if_pos hfull

theorem create_of_nothing (hroom : d.streams.length < streamLimit) :
    d.create 0 = (.error .badFormat, d) :=
  if_neg (Nat.not_le.mpr hroom)

theorem create_of_room (hroom : d.streams.length < streamLimit) {bytes : Nat} (hbytes : bytes ≠ 0) :
    d.create bytes = (.ok ⟨d.nextId⟩,
      { d with
        nextId := d.nextId + 1
        streams := d.streams ++ [⟨⟨d.nextId⟩, bytes, none, none⟩] }) := by
  unfold create
  rw [if_neg (Nat.not_le.mpr hroom), if_neg hbytes]

/-- A handle is given out as long as there is room, and for a stream that pulls at all. -/
theorem create_eq_ok_iff {bytes : Nat} : (d.create bytes).1 = .ok h ↔
    d.streams.length < streamLimit ∧ bytes ≠ 0 ∧ h = ⟨d.nextId⟩ := by
  obtain hfull | hroom := Nat.lt_or_ge d.streams.length streamLimit |>.symm
  · simp [create_of_full hfull, Nat.not_lt.mpr hfull]
  · by_cases hbytes : bytes = 0
    · simp [hbytes, create_of_nothing hroom]
    · simp [create_of_room hroom hbytes, hroom, hbytes, eq_comm]

theorem create_eq_noHandle_iff {bytes : Nat} :
    (d.create bytes).1 = .error .noHandle ↔ streamLimit ≤ d.streams.length := by
  obtain hfull | hroom := Nat.lt_or_ge d.streams.length streamLimit |>.symm
  · simp [create_of_full hfull, hfull]
  · by_cases hbytes : bytes = 0
    · simp [hbytes, create_of_nothing hroom, Nat.not_le.mpr hroom]
    · simp [create_of_room hroom hbytes, Nat.not_le.mpr hroom]

theorem register_of_place (hi : d.place? h = some i) (hs : d.streams[i]? = some s)
    (feed : FeedRef) :
    d.register h feed =
      (.ok (), { d with streams := d.streams.set i { s with feed := some feed } }) := by
  unfold register modify
  rw [stream?_of_place? hi, hs]
  dsimp only
  rw [updateFirst_eq hi hs]

theorem start_of_started (hs : d.stream? h = some s) (hworker : s.worker.isSome) (rate : UInt32)
    (stereo : Bool) : d.start h rate stereo = .ok (none, d) := by
  unfold start
  rw [hs]
  exact if_pos hworker

theorem start_of_place (hi : d.place? h = some i) (hs : d.streams[i]? = some s)
    (hidle : s.worker = none) {feed : FeedRef} (hfeed : s.feed = some feed) (rate : UInt32)
    (stereo : Bool) :
    d.start h rate stereo =
      match d.periodFor? s feed rate stereo with
      | none => .error .overflow
      | some period => .ok (some period,
        { d with
          streams := d.streams.set i { s with worker := some ⟨period, feed, 0⟩ }
          monitor := { d.monitor with workers := d.monitor.workers + 1 } }) := by
  unfold start employ modify
  rw [stream?_of_place? hi, hs]
  simp only [hidle, hfeed, Option.isSome_none, Bool.false_eq_true, if_false]
  cases d.periodFor? s feed rate stereo with
  | none => rfl
  | some period =>
    dsimp only
    rw [updateFirst_eq hi hs, hfeed]

theorem stop_of_unknown (h : Handle) (hs : d.stream? h = none) : d.stop h = d := by
  unfold stop
  rw [hs]

theorem stop_of_place (hi : d.place? h = some i) (hs : d.streams[i]? = some s) :
    d.stop h =
      { d with
        streams := d.streams.set i { s with worker := none }
        monitor := d.monitorWithout s } := by
  unfold stop modify
  rw [stream?_of_place? hi, hs]
  dsimp only
  rw [retire_eq, updateFirst_eq hi hs]

theorem destroy_of_place (hi : d.place? h = some i) (hs : d.streams[i]? = some s) :
    d.destroy h = { d with streams := swapRemove d.streams i, monitor := d.monitorWithout s } := by
  unfold destroy
  rw [stream?_of_place? hi, hs]
  unfold place? at hi
  rw [hi]
  dsimp only
  rw [retire_eq]

theorem destroy_of_unknown (h : Handle) (hs : d.stream? h = none) : d.destroy h = d := by
  unfold destroy
  rw [hs]
  split
  next hfound => cases hfound
  next => rfl

theorem setGain_of_unknown (h : Handle) (hs : d.stream? h = none) (gain : Gain) :
    d.setGain h gain = d := by
  unfold setGain
  rw [hs]

theorem effect (d : Simulator) (c : Call) : Effect d c (d.perform c) := by
  cases c with
  | create bytes =>
    obtain hfull | hroom := Nat.lt_or_ge d.streams.length streamLimit |>.symm
    · simp only [perform, create_of_full hfull]
      exact .failed _ _
    · by_cases hbytes : bytes = 0
      · simp only [perform, hbytes, create_of_nothing hroom]
        exact .failed _ _
      · simp only [perform, create_of_room hroom hbytes]
        exact .created bytes hroom hbytes
  | register h feed =>
    cases hs : d.stream? h with
    | none =>
      simp only [perform, register, hs]
      exact .failed _ _
    | some s =>
      obtain ⟨i, hi, hs⟩ := exists_place hs
      simp only [perform, register_of_place hi hs]
      exact .registered h feed i s hi hs
  | setGain h gain =>
    cases hs : d.stream? h with
    | none =>
      simp only [perform, setGain_of_unknown h hs]
      exact .unknown _ h rfl hs
    | some s =>
      simp only [perform, setGain, hs]
      exact .gained h gain s hs
  | start h rate stereo =>
    cases hs : d.stream? h with
    | none =>
      simp only [perform, start, hs]
      exact .failed _ _
    | some s =>
      obtain ⟨i, hi, hat⟩ := exists_place hs
      cases hworker : s.worker with
      | some w =>
        have hstarted : s.worker.isSome := by rw [hworker]; rfl
        simp only [perform, start_of_started hs hstarted]
        exact .already h rate stereo s hs hstarted
      | none =>
        cases hfeed : s.feed with
        | none =>
          simp only [perform, start, hs, hworker, hfeed, Option.isSome_none, Bool.false_eq_true,
            if_false]
          exact .failed _ _
        | some feed =>
          simp only [perform, start_of_place hi hat hworker hfeed]
          cases hperiod : d.periodFor? s feed rate stereo with
          | none => exact .failed _ _
          | some period => exact .started h rate stereo i s feed period hi hat hworker hfeed hperiod
  | stop h =>
    cases hs : d.stream? h with
    | none =>
      simp only [perform, stop_of_unknown h hs]
      exact .unknown _ h rfl hs
    | some s =>
      obtain ⟨i, hi, hs⟩ := exists_place hs
      simp only [perform, stop_of_place hi hs]
      exact .stopped h i s hi hs
  | destroy h =>
    cases hs : d.stream? h with
    | none =>
      simp only [perform, destroy_of_unknown h hs]
      exact .unknown _ h rfl hs
    | some s =>
      obtain ⟨i, hi, hs⟩ := exists_place hs
      simp only [perform, destroy_of_place hi hs]
      exact .destroyed h i s hi hs

/-- A call that fails changes nothing. -/
theorem perform_of_error {c : Call} {e : StartFailure} (he : (d.perform c).1 = .error e) :
    (d.perform c).2 = d := by
  have heffect := d.effect c
  generalize d.perform c = r at he heffect ⊢
  cases heffect with
  | failed => rfl
  | _ => cases he

/-- Nor does a call on a stream that is not there. -/
theorem perform_of_unknown {c : Call} (hc : c.handle? = some h) (hs : d.stream? h = none) :
    (d.perform c).2 = d := by
  have hnone : ∀ {i s}, d.place? h = some i → d.streams[i]? = some s → False := fun hi hat => by
    rw [stream?_of_place? hi, hat] at hs
    cases hs
  have heffect := d.effect c
  generalize d.perform c = r at heffect ⊢
  cases heffect with
  | failed | unknown | already => rfl
  | created => cases hc
  | gained h' gain s hs' =>
    cases hc
    rw [hs] at hs'
    cases hs'
  | registered h' feed i s hi hat | stopped h' i s hi hat | destroyed h' i s hi hat =>
    cases hc
    exact (hnone hi hat).elim
  | started h' rate stereo i s feed period hi hat =>
    cases hc
    exact (hnone hi hat).elim

/-- What a call leaves alone, whatever it does to the streams. -/
structure Leaves (d : Simulator) (c : Call) (d' : Simulator) : Prop where
  capabilities : d'.capabilities = d.capabilities
  period : d'.period = d.period
  recorded : d'.recorded = d.recorded
  nextId : c.handle? ≠ none → d'.nextId = d.nextId
  monitor : d'.monitor =
    { d.monitor with gain := d'.monitor.gain, workers := d'.monitor.workers }
  gain : (∀ h gain, c ≠ .setGain h gain) → d'.monitor.gain = d.monitor.gain
  workers : (∀ h rate stereo, c ≠ .start h rate stereo ∧ c ≠ .stop h ∧ c ≠ .destroy h) →
    d'.monitor.workers = d.monitor.workers

theorem leaves_self (d : Simulator) (c : Call) : Leaves d c d :=
  ⟨rfl, rfl, rfl, fun _ => rfl, rfl, fun _ => rfl, fun _ => rfl⟩

theorem leaves (d : Simulator) (c : Call) : Leaves d c (d.perform c).2 := by
  have heffect := d.effect c
  generalize d.perform c = r at heffect ⊢
  cases heffect with
  | failed | unknown | already => exact leaves_self d _
  | created => exact ⟨rfl, rfl, rfl, fun hc => absurd rfl hc, rfl, fun _ => rfl, fun _ => rfl⟩
  | registered => exact ⟨rfl, rfl, rfl, fun _ => rfl, rfl, fun _ => rfl, fun _ => rfl⟩
  | gained h gain =>
    exact ⟨rfl, rfl, rfl, fun _ => rfl, rfl, fun hc => absurd rfl (hc h gain), fun _ => rfl⟩
  | started h rate stereo =>
    exact ⟨rfl, rfl, rfl, fun _ => rfl, rfl, fun _ => rfl,
      fun hc => absurd rfl (hc h rate stereo).1⟩
  | stopped h =>
    exact ⟨rfl, rfl, rfl, fun _ => rfl, rfl, fun _ => rfl, fun hc => absurd rfl (hc h 0 true).2.1⟩
  | destroyed h =>
    exact ⟨rfl, rfl, rfl, fun _ => rfl, rfl, fun _ => rfl, fun hc => absurd rfl (hc h 0 true).2.2⟩

/-! ## 4. What is kept beside the streams -/

section

variable {α β : Type} {l : List α}

theorem map_swapRemove (f : α → β) (l : List α) (i : Nat) :
    (swapRemove l i).map f = swapRemove (l.map f) i := by
  unfold swapRemove
  rw [List.getLast?_map]
  cases l.getLast? with
  | none => rfl
  | some last =>
    dsimp only [Option.map_some]
    rw [List.map_dropLast, List.map_set]

@[simp] theorem length_swapRemove (l : List α) (i : Nat) :
    (swapRemove l i).length = l.length - 1 := by
  unfold swapRemove
  split
  next hlast => simp [List.getLast?_eq_none_iff.mp hlast]
  next => simp

/-- A removal is one as far as the order does not matter. -/
theorem swapRemove_perm {i : Nat} (hi : i < l.length) : (swapRemove l i).Perm (l.eraseIdx i) := by
  obtain rfl | ⟨init, last, rfl⟩ := List.eq_nil_or_concat l
  · cases hi
  rw [List.concat_eq_append] at *
  unfold swapRemove
  simp only [List.getLast?_append, List.getLast?_singleton, Option.some_or]
  by_cases hlast : i < init.length
  · rw [List.set_append, if_pos hlast, List.dropLast_concat,
      List.eraseIdx_append_of_lt_length hlast]
    exact (List.set_perm_cons_eraseIdx hlast last).trans (List.perm_append_singleton _ _).symm
  · obtain rfl : i = init.length := by simp at hi; omega
    rw [List.set_append, if_neg hlast, Nat.sub_self]
    simp [List.eraseIdx_append_of_length_le]

/-- The list with the entry of the stream that a handle names replaced, if there is a new one. -/
def put (d : Simulator) (h : Handle) (x? : Option α) (l : List α) : List α :=
  match d.place? h, x? with
  | some i, some x => l.set i x
  | _, _ => l

/-- The list as it is once the call is through.  A new stream gets the entry `new`, and the stream
that the handle names the entry `x?`, if there is one. -/
def beside (d : Simulator) (new : α) (x? : Option α) (l : List α) : Call → List α
  | .create bytes =>
    match (d.create bytes).1 with
    | .ok _ => l ++ [new]
    | .error _ => l
  | .destroy h =>
    match d.place? h with
    | some i => swapRemove l i
    | none => l
  | .register h _ | .setGain h _ | .start h _ _ | .stop h => d.put h x? l

theorem put_none (d : Simulator) (h : Handle) (l : List α) : d.put h none l = l := by
  unfold put
  split
  next hx => cases hx
  next => rfl

theorem put_of_unknown (hplace : d.place? h = none) (x? : Option α) (l : List α) :
    d.put h x? l = l := by
  unfold put
  rw [hplace]

theorem put_some (hi : d.place? h = some i) (x : α) (l : List α) :
    d.put h (some x) l = l.set i x := by
  unfold put
  rw [hi]

theorem beside_of_error {c : Call} {e : StartFailure} (hr : (d.perform c).1 = .error e) (new : α) :
    beside d new none l c = l := by
  cases c with
  | create bytes =>
    simp only [perform] at hr
    simp only [beside]
    generalize d.create bytes = r at hr ⊢
    obtain ⟨e' | h, d'⟩ := r
    · rfl
    · cases hr
  | destroy h => cases hr
  | register | setGain | start | stop => exact put_none d _ l

theorem beside_of_unknown {c : Call} (hc : c.handle? = some h) (hs : d.stream? h = none) (new : α)
    (x? : Option α) : beside d new x? l c = l := by
  have hplace := place?_eq_none_iff.mpr hs
  cases c with
  | create bytes => cases hc
  | destroy =>
    cases hc
    simp only [beside, hplace]
  | register | setGain | start | stop =>
    cases hc
    exact put_of_unknown hplace x? l

theorem beside_create {bytes : Nat} (hroom : d.streams.length < streamLimit) (hbytes : bytes ≠ 0)
    (new : α) (x? : Option α) : beside d new x? l (.create bytes) = l ++ [new] := by
  simp only [beside, create_of_room hroom hbytes]

theorem beside_destroy (hi : d.place? h = some i) (new : α) (x? : Option α) :
    beside d new x? l (.destroy h) = swapRemove l i := by
  simp only [beside, hi]

/-- One place and all others, in a list and the streams beside it. -/
theorem zip_at {m : List β} (hlen : l.length = m.length) {i : Nat} {s : β} (hs : m[i]? = some s) :
    ∃ x rest, l[i]? = some x ∧ (l.zip m).Perm ((x, s) :: rest) ∧
      (∀ t, (l.zip (m.set i t)).Perm ((x, t) :: rest)) ∧
      (∀ y t, ((l.set i y).zip (m.set i t)).Perm ((y, t) :: rest)) ∧
      ((swapRemove l i).zip (swapRemove m i)).Perm rest := by
  obtain ⟨hi, rfl⟩ := List.getElem?_eq_some_iff.mp hs
  have hil : i < l.length := by omega
  have hiz : i < (l.zip m).length := by rw [List.length_zip]; omega
  -- a pair of lists is a list of pairs
  have hfst : (l.zip m).map Prod.fst = l := List.map_fst_zip (by omega)
  have hsnd : (l.zip m).map Prod.snd = m := List.map_snd_zip (by omega)
  have hzip : ∀ z : List (α × β), (z.map Prod.fst).zip (z.map Prod.snd) = z := fun z => by
    rw [List.zip_map']
    exact List.map_id z
  have hset : ∀ y t, (l.set i y).zip (m.set i t) = (l.zip m).set i (y, t) := fun y t => by
    have h := hzip ((l.zip m).set i (y, t))
    rwa [List.map_set, List.map_set, hfst, hsnd] at h
  have hperm : ∀ y t, ((l.set i y).zip (m.set i t)).Perm ((y, t) :: (l.zip m).eraseIdx i) :=
    fun y t => by
      rw [hset]
      exact List.set_perm_cons_eraseIdx hiz (y, t)
  refine ⟨l[i], (l.zip m).eraseIdx i, List.getElem?_eq_getElem hil, ?_, fun t => ?_, hperm, ?_⟩
  · have hpair : (l.zip m)[i] = (l[i], m[i]) := List.getElem_zip
    rw [← hpair]
    exact (List.getElem_cons_eraseIdx_perm hiz).symm
  · have h := hperm l[i] t
    rwa [List.set_getElem_self] at h
  · have hswap : (swapRemove l i).zip (swapRemove m i) = swapRemove (l.zip m) i := by
      have h := hzip (swapRemove (l.zip m) i)
      rwa [map_swapRemove, map_swapRemove, hfst, hsnd] at h
    rw [hswap]
    exact swapRemove_perm hiz

end

end Simulator

end Playout

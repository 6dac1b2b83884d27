import Playout.Proofs.Crew

/-!
# Workers beside their streams

A stream has its worker beside it for as long as the device has one for it.  A call starts one
worker, ends one, or leaves them all as they are.  To shut the device down is to let its workers go
one after the other.
-/

namespace Playout

namespace Simulator

namespace Crew

/-! ## 1. Each worker in its place -/

/-- A stream has a worker exactly if it is being worked for, and then from the feed it was started
with. -/
def Matched (e : Option Hand × Stream) : Prop := e.1.map (·.feed) = e.2.worker.map (·.feed.number)

def isWorked (e : Option Hand × Stream) : Bool := e.2.worker.isSome

/-- The streams have their workers beside them, and the device knows how many there are. -/
structure Staffed (v : Crew) : Prop where
  length : v.hands.length = v.device.streams.length
  matched : ∀ e ∈ v.entries, Matched e
  limit : v.device.streams.length ≤ streamLimit
  running : v.device.monitor.workers = UInt64.ofNat (v.entries.countP isWorked)

variable {v v' : Crew}

theorem Staffed.map_snd_entries (hv : v.Staffed) : v.entries.map Prod.snd = v.device.streams :=
  List.map_snd_zip (Nat.le_of_eq hv.length.symm)

theorem staffed_begin (capabilities : Capabilities) (period : Option Duration)
    (feeds : Nat → Feed) : (begin capabilities period feeds).Staffed where
  length := rfl
  matched _ he := absurd he List.not_mem_nil
  limit := Nat.zero_le _
  running := rfl

/-- Some streams with their workers take the place of others. -/
theorem Staffed.replace (hv : v.Staffed) (old new : List (Option Hand × Stream))
    {rest : List (Option Hand × Stream)} (hbefore : v.entries.Perm (old ++ rest))
    (hafter : v'.entries.Perm (new ++ rest))
    (hlength : v'.hands.length = v'.device.streams.length) (hmatched : ∀ e ∈ new, Matched e)
    (hlimit : v'.device.streams.length ≤ streamLimit)
    (hrunning : v'.device.monitor.workers + UInt64.ofNat (old.countP isWorked) =
      v.device.monitor.workers + UInt64.ofNat (new.countP isWorked)) : v'.Staffed where
  length := hlength
  matched e he := by
    obtain he | he := List.mem_append.mp (hafter.mem_iff.mp he)
    · exact hmatched e he
    · exact hv.matched e (hbefore.mem_iff.mpr (List.mem_append_right _ he))
  limit := hlimit
  running := by
    have hbefore' := hv.running
    rw [hbefore.countP_eq, List.countP_append, UInt64.ofNat_add] at hbefore'
    rw [hafter.countP_eq, List.countP_append, UInt64.ofNat_add]
    -- those that stay are counted on both sides
    rw [hbefore'] at hrunning
    apply (UInt64.add_left_inj (UInt64.ofNat (old.countP isWorked))).mp
    rw [hrunning]
    ac_rfl

-- The workers beside some of the streams, and the others.
theorem workers_perm (es : List (Option Hand × Stream)) {rest : List (Option Hand × Stream)}
    (hentries : v.entries.Perm (es ++ rest)) :
    v.workers.Perm (es.filterMap Prod.fst ++ rest.filterMap Prod.fst) := by
  have h := hentries.filterMap Prod.fst
  rwa [List.filterMap_append] at h

/-- What a call does to the workers. -/
inductive Called (v : Crew) : List Note × Crew → Prop where
  | same (v' : Crew) (hworkers : v'.workers.Perm v.workers) (hhired : v'.hired = v.hired) :
      Called v ([], v')
  | started (v' : Crew) (a : Hand) (hworkers : v'.workers.Perm (a :: v.workers))
      (hnumber : a.number = v.hired) (hrest : a.stage = .resting)
      (hhired : v'.hired = v.hired + 1) : Called v ([.started a.number a.feed], v')
  | left (v' : Crew) (a : Hand) (hworkers : v.workers.Perm (a :: v'.workers))
      (hrest : a.stage = .resting) (hhired : v'.hired = v.hired) : Called v ([.left a.number], v')

/-- What is told when the worker of a stream goes, if there is one. -/
def leftNotes (x : Option Hand) : List Note := (x.map fun a => Note.left a.number).toList

-- A stream loses its worker, or is lost with it.
theorem called_left {x : Option Hand} {s : Stream} {new rest : List (Option Hand × Stream)}
    (hbefore : v.entries.Perm ((x, s) :: rest)) (hafter : v'.entries.Perm (new ++ rest))
    (hnew : new.filterMap Prod.fst = []) (hhired : v'.hired = v.hired)
    (hrest : ∀ a, x = some a → a.stage = .resting) : Called v (leftNotes x, v') := by
  have hold := workers_perm [(x, s)] hbefore
  have hnow := workers_perm new hafter
  rw [hnew, List.nil_append] at hnow
  cases x with
  | none => exact .same v' (hnow.trans hold.symm) hhired
  | some a => exact .left v' a (hold.trans (hnow.symm.cons a)) (hrest a rfl) hhired

theorem countP_isWorked (x : Option Hand) (s : Stream) :
    [(x, s)].countP isWorked = if s.worker.isSome then 1 else 0 := by
  rw [List.countP_singleton]
  rfl

-- Streams come and go, or change, but no worker does.
theorem Staffed.reshape (hv : v.Staffed) (old new : List (Option Hand × Stream))
    {rest : List (Option Hand × Stream)} (hbefore : v.entries.Perm (old ++ rest))
    (hafter : v'.entries.Perm (new ++ rest))
    (hlength : v'.hands.length = v'.device.streams.length) (hmatched : ∀ e ∈ new, Matched e)
    (hlimit : v'.device.streams.length ≤ streamLimit)
    (hsame : new.filterMap Prod.fst = old.filterMap Prod.fst)
    (hworked : new.countP isWorked = old.countP isWorked) (hhired : v'.hired = v.hired)
    (hrunning : v'.device.monitor.workers = v.device.monitor.workers) :
    Called v ([], v') ∧ v'.Staffed := by
  have hworkers := workers_perm new hafter
  rw [hsame] at hworkers
  refine ⟨.same v' (hworkers.trans (workers_perm old hbefore).symm) hhired,
    hv.replace old new hbefore hafter hlength hmatched hlimit ?_⟩
  rw [hrunning, hworked]

theorem Staffed.kept (hv : v.Staffed) (hstreams : v'.device.streams = v.device.streams)
    (hhands : v'.hands = v.hands) (hhired : v'.hired = v.hired)
    (hrunning : v'.device.monitor.workers = v.device.monitor.workers) :
    Called v ([], v') ∧ v'.Staffed := by
  have hentries : v'.entries = v.entries := by rw [entries, hstreams, hhands, entries]
  have hbefore : v.entries.Perm ([] ++ v.entries) := List.Perm.refl _
  refine hv.reshape [] [] hbefore ?_ ?_ (fun _ he => absurd he List.not_mem_nil) ?_ rfl rfl hhired
    hrunning
  · rw [hentries]
    exact hbefore
  · rw [hstreams, hhands, hv.length]
  · rw [hstreams]
    exact hv.limit

theorem Staffed.created (hv : v.Staffed) (s : Stream) (hidle : s.worker = none)
    (hroom : v.device.streams.length < streamLimit)
    (hstreams : v'.device.streams = v.device.streams ++ [s]) (hhands : v'.hands = v.hands ++ [none])
    (hhired : v'.hired = v.hired)
    (hrunning : v'.device.monitor.workers = v.device.monitor.workers) :
    Called v ([], v') ∧ v'.Staffed := by
  refine hv.reshape [] [(none, s)] (List.Perm.refl _) ?_ ?_ ?_ ?_ rfl ?_ hhired hrunning
  · rw [entries, hstreams, hhands, List.zip_append hv.length]
    exact List.perm_append_comm
  · rw [hstreams, hhands, List.length_append, List.length_append, hv.length]
    rfl
  · simp [Matched, hidle]
  · rw [hstreams, List.length_append]
    exact hroom
  · rw [countP_isWorked, hidle]
    rfl

theorem Staffed.registered (hv : v.Staffed) {i : Nat} {s : Stream} (s' : Stream)
    (hs : v.device.streams[i]? = some s) (hworker : s'.worker = s.worker)
    (hstreams : v'.device.streams = v.device.streams.set i s') (hhands : v'.hands = v.hands)
    (hhired : v'.hired = v.hired)
    (hrunning : v'.device.monitor.workers = v.device.monitor.workers) :
    Called v ([], v') ∧ v'.Staffed := by
  obtain ⟨x, rest, -, hbefore, hafter, -⟩ := zip_at hv.length hs
  have hx : Matched (x, s) := hv.matched _ (hbefore.mem_iff.mpr List.mem_cons_self)
  have hafter' : v'.entries.Perm ([(x, s')] ++ rest) := by
    rw [entries, hstreams, hhands]
    exact hafter s'
  refine hv.reshape [(x, s)] _ hbefore hafter' ?_ ?_ ?_ rfl ?_ hhired hrunning
  · rw [hstreams, hhands, List.length_set, hv.length]
  · rintro e (_ | ⟨_, ⟨⟩⟩)
    rwa [Matched, hworker]
  · rw [hstreams, List.length_set]
    exact hv.limit
  · rw [countP_isWorked, countP_isWorked, hworker]

theorem Staffed.started (hv : v.Staffed) {i : Nat} {s : Stream} (s' : Stream) {a : Hand}
    (hs : v.device.streams[i]? = some s) (hidle : s.worker = none) (hmatched : Matched (some a, s'))
    (hnumber : a.number = v.hired) (hrest : a.stage = .resting)
    (hstreams : v'.device.streams = v.device.streams.set i s')
    (hhands : v'.hands = v.hands.set i (some a)) (hhired : v'.hired = v.hired + 1)
    (hrunning : v'.device.monitor.workers = v.device.monitor.workers + 1) :
    Called v ([.started a.number a.feed], v') ∧ v'.Staffed := by
  obtain ⟨x, rest, -, hbefore, -, hafter, -⟩ := zip_at hv.length hs
  -- there was no worker before, and there is one now
  obtain rfl : x = none := by
    have hx : Matched (x, s) := hv.matched _ (hbefore.mem_iff.mpr List.mem_cons_self)
    rw [Matched, hidle] at hx
    exact Option.map_eq_none_iff.mp hx
  have hworked : s'.worker.isSome := by
    rw [← Option.isSome_map, ← hmatched]
    rfl
  have hafter' : v'.entries.Perm ([(some a, s')] ++ rest) := by
    rw [entries, hstreams, hhands]
    exact hafter (some a) s'
  have hold := workers_perm [(none, s)] hbefore
  have hworkers : v'.workers.Perm (a :: v.workers) :=
    (workers_perm [(some a, s')] hafter').trans (hold.symm.cons a)
  refine ⟨.started v' a hworkers hnumber hrest hhired,
    hv.replace [(none, s)] _ hbefore hafter' ?_ ?_ ?_ ?_⟩
  · rw [hstreams, hhands, List.length_set, List.length_set, hv.length]
  · rintro e (_ | ⟨_, ⟨⟩⟩)
    exact hmatched
  · rw [hstreams, List.length_set]
    exact hv.limit
  · rw [hrunning, countP_isWorked, countP_isWorked, hidle, if_pos hworked]
    exact UInt64.add_zero _

/-- The device that `Simulator.stop` leaves, with the worker gone. -/
def vacated (v : Crew) (i : Nat) (s : Stream) : Crew :=
  { v with
    device := { v.device with
      streams := v.device.streams.set i (idled s)
      monitor := v.device.monitorWithout s }
    hands := v.hands.set i none }

theorem Staffed.vacated (hv : v.Staffed) {i : Nat} {s : Stream} {x : Option Hand}
    (hs : v.device.streams[i]? = some s) (hx : v.hands[i]? = some x)
    (hrest : ∀ a, x = some a → a.stage = .resting) :
    Called v (leftNotes x, v.vacated i s) ∧ (v.vacated i s).Staffed := by
  obtain ⟨x', rest, hx', hbefore, -, hafter, -⟩ := zip_at hv.length hs
  obtain rfl : x' = x := Option.some.inj (hx'.symm.trans hx)
  have hafter' : (v.vacated i s).entries.Perm ([(none, { s with worker := none })] ++ rest) :=
    hafter _ _
  refine ⟨called_left hbefore hafter' rfl rfl hrest, hv.replace [(x', s)] _ hbefore hafter' ?_ ?_ ?_
    ?_⟩
  · simp [Crew.vacated, hv.length]
  · simp [Matched]
  · simpa [Crew.vacated] using hv.limit
  · rw [countP_isWorked, countP_isWorked]
    exact (workers_monitorWithout v.device s).trans (UInt64.add_zero _).symm

theorem Staffed.destroyed (hv : v.Staffed) {i : Nat} {s : Stream} {x : Option Hand}
    (hs : v.device.streams[i]? = some s) (hx : v.hands[i]? = some x)
    (hrest : ∀ a, x = some a → a.stage = .resting)
    (hdevice : v'.device = { v.device with
      streams := swapRemove v.device.streams i
      monitor := v.device.monitorWithout s })
    (hhands : v'.hands = swapRemove v.hands i) (hhired : v'.hired = v.hired) :
    Called v (leftNotes x, v') ∧ v'.Staffed := by
  obtain ⟨x', rest, hx', hbefore, -, -, hafter⟩ := zip_at hv.length hs
  obtain rfl : x' = x := Option.some.inj (hx'.symm.trans hx)
  have hafter' : v'.entries.Perm ([] ++ rest) := by
    rw [entries, hdevice, hhands]
    exact hafter
  refine ⟨called_left hbefore hafter' rfl hhired hrest, hv.replace [(x', s)] _ hbefore hafter' ?_ ?_
    ?_ ?_⟩
  · rw [hdevice, hhands, length_swapRemove, length_swapRemove, hv.length]
  · exact fun _ he => absurd he List.not_mem_nil
  · rw [hdevice, length_swapRemove]
    exact Nat.le_trans (Nat.sub_le _ _) hv.limit
  · rw [hdevice, countP_isWorked]
    exact (workers_monitorWithout v.device s).trans (UInt64.add_zero _).symm

/-! ## 2. Calls -/

variable {c : Call}

theorem leaving?_eq_none_of_unknown {h : Handle} (hc : c.handle? = some h)
    (hs : v.device.stream? h = none) : v.leaving? c = none := by
  have hplace := place?_eq_none_iff.mpr hs
  cases c <;> cases hc <;> simp [leaving?, hplace]

theorem leaving?_eq_none_of_error {e : StartFailure} (hr : (v.device.perform c).1 = .error e) :
    v.leaving? c = none := by
  cases c with
  | create | register | setGain | start => rfl
  | stop | destroy => cases hr

theorem hired?_eq_none (hr : ∀ p, (v.device.perform c).1 ≠ .ok (.started (some p))) :
    v.hired? c = none := by
  unfold hired?
  split
  next h => exact absurd h (hr _)
  next => rfl

theorem hired?_start {h : Handle} {rate : UInt32} {stereo : Bool} {s : Stream} {feed : FeedRef}
    {p : Duration} (hs : v.device.stream? h = some s) (hfeed : s.feed = some feed)
    (hr : (v.device.perform (.start h rate stereo)).1 = .ok (.started (some p))) :
    v.hired? (.start h rate stereo) = some ⟨v.hired, feed.number, .resting⟩ := by
  simp only [hired?, hr, hs, Option.bind_some, hfeed, Option.map_some]

theorem call_of_none (hleaving : v.leaving? c = none) (hhired : v.hired? c = none) :
    v.call c = ([], { v with
      device := (v.device.perform c).2
      hands := v.device.beside none none v.hands c }) := by
  simp only [call, hleaving, hhired]

-- A call that fails, one that has nothing to do, and one that is done already.
theorem call_of_error {e : StartFailure} (he : (v.device.perform c).1 = .error e) :
    v.call c = ([], v) := by
  rw [call_of_none (leaving?_eq_none_of_error he) (hired?_eq_none (by rw [he]; nofun)),
    beside_of_error he, perform_of_error he]

theorem call_of_unknown {h : Handle} (hc : c.handle? = some h) (hs : v.device.stream? h = none) :
    v.call c = ([], v) := by
  have hhired : v.hired? c = none := by
    unfold hired?
    split
    next h' _ _ _ _ =>
      cases hc
      simp [hs]
    next => rfl
  rw [call_of_none (leaving?_eq_none_of_unknown hc hs) hhired, beside_of_unknown hc hs,
    perform_of_unknown hc hs]

theorem call_of_started {h : Handle} {s : Stream} (hs : v.device.stream? h = some s)
    (hworker : s.worker.isSome) (rate : UInt32) (stereo : Bool) :
    v.call (.start h rate stereo) = ([], v) := by
  have hperform : v.device.perform (.start h rate stereo) = (.ok (.started none), v.device) := by
    simp only [perform, start_of_started hs hworker]
  have hput : v.device.beside none none v.hands (.start h rate stereo) = v.hands := put_none _ h _
  rw [call_of_none rfl (hired?_eq_none (by simp [hperform])), hput, hperform]

theorem call_of_hired {a : Hand} (hleaving : v.leaving? c = none) (hhired : v.hired? c = some a) :
    v.call c = ([.started a.number a.feed], { v with
      device := (v.device.perform c).2
      hands := v.device.beside none (some (some a)) v.hands c
      hired := v.hired + 1 }) := by
  simp only [call, hleaving, hhired]

theorem call_of_leaving {a : Hand} (hleaving : v.leaving? c = some a) (hrest : a.stage = .resting) :
    v.call c = ([.left a.number], { v with
      device := (v.device.perform c).2
      hands := v.device.beside none (some none) v.hands c }) := by
  simp only [call, hleaving, hrest, if_true]

theorem call_of_busy {a : Hand} (hleaving : v.leaving? c = some a) (hbusy : a.stage ≠ .resting) :
    v.call c = ([], v) := by
  simp only [call, hleaving, hbusy, if_false]

theorem leaving?_of_place {h : Handle} {i : Nat} {x : Option Hand} (hi : v.device.place? h = some i)
    (hx : v.hands[i]? = some x) : v.leaving? (.stop h) = x ∧ v.leaving? (.destroy h) = x := by
  simp [leaving?, hi, hx]

/-- A call starts one worker, ends one, or does nothing to them. -/
theorem Staffed.call (hv : v.Staffed) (c : Call) :
    Called v (v.call c) ∧ (v.call c).2.Staffed := by
  obtain ⟨r, hr⟩ : ∃ r, v.device.perform c = r := ⟨_, rfl⟩
  have heffect := v.device.effect c
  rw [hr] at heffect
  cases heffect with
  | failed c e =>
    rw [call_of_error (congrArg Prod.fst hr)]
    exact hv.kept rfl rfl rfl rfl
  | unknown c h hc hs =>
    rw [call_of_unknown hc hs]
    exact hv.kept rfl rfl rfl rfl
  | already h rate stereo s hs hworker =>
    rw [call_of_started hs hworker]
    exact hv.kept rfl rfl rfl rfl
  | gained h gain s hs =>
    rw [call_of_none rfl (hired?_eq_none (by rw [hr]; nofun)), hr]
    exact hv.kept rfl (put_none _ h _) rfl rfl
  | created bytes hroom hbytes =>
    rw [call_of_none rfl (hired?_eq_none (by rw [hr]; nofun)), beside_create hroom hbytes, hr]
    exact hv.created _ rfl hroom rfl rfl rfl rfl
  | registered h feed i s hi hs =>
    have hput : v.device.beside none none v.hands (.register h feed) = v.hands := put_none _ h _
    rw [call_of_none rfl (hired?_eq_none (by rw [hr]; nofun)), hput, hr]
    exact hv.registered { s with feed := some feed } hs rfl rfl rfl rfl rfl
  | started h rate stereo i s feed period hi hs hidle hfeed hperiod =>
    have hhired := hired?_start ((stream?_of_place? hi).trans hs) hfeed (congrArg Prod.fst hr)
    have hput : v.device.beside none (some (some ⟨v.hired, feed.number, .resting⟩)) v.hands
        (.start h rate stereo) = v.hands.set i (some ⟨v.hired, feed.number, .resting⟩) :=
      put_some hi _ _
    rw [call_of_hired rfl hhired, hput, hr]
    exact hv.started { s with worker := some ⟨period, feed, 0⟩ } hs hidle rfl rfl rfl rfl rfl rfl
      rfl
  | stopped h i s hi hs =>
    obtain ⟨x, rest, hx, -⟩ := zip_at hv.length hs
    have hleaving := (leaving?_of_place hi hx).1
    cases x with
    | none =>
      have hput : v.device.beside none none v.hands (.stop h) = v.hands.set i none := by
        obtain ⟨hlt, hat⟩ := List.getElem?_eq_some_iff.mp hx
        rw [← hat, List.set_getElem_self]
        exact put_none _ h _
      rw [call_of_none hleaving (hired?_eq_none (by rw [hr]; nofun)), hput, hr]
      exact hv.vacated hs hx nofun
    | some a =>
      by_cases hrest : a.stage = .resting
      · have hput : v.device.beside none (some none) v.hands (.stop h) = v.hands.set i none :=
          put_some hi _ _
        rw [call_of_leaving hleaving hrest, hput, hr]
        exact hv.vacated hs hx fun _ ha => Option.some.inj ha ▸ hrest
      · rw [call_of_busy hleaving hrest]
        exact hv.kept rfl rfl rfl rfl
  | destroyed h i s hi hs =>
    obtain ⟨x, rest, hx, -⟩ := zip_at hv.length hs
    have hleaving := (leaving?_of_place hi hx).2
    cases x with
    | none =>
      rw [call_of_none hleaving (hired?_eq_none (by rw [hr]; nofun)), beside_destroy hi, hr]
      exact hv.destroyed hs hx nofun rfl rfl rfl
    | some a =>
      by_cases hrest : a.stage = .resting
      · rw [call_of_leaving hleaving hrest, beside_destroy hi, hr]
        exact hv.destroyed hs hx (fun _ ha => Option.some.inj ha ▸ hrest) rfl rfl rfl
      · rw [call_of_busy hleaving hrest]
        exact hv.kept rfl rfl rfl rfl

theorem feeds_call (v : Crew) (c : Call) : (v.call c).2.feeds = v.feeds := by
  unfold call
  split
  · split <;> rfl
  · rfl
  · rfl

theorem leaves_call (v : Crew) (c : Call) : Leaves v.device c (v.call c).2.device := by
  unfold call
  split
  · split
    · exact leaves v.device c
    · exact leaves_self v.device c
  · exact leaves v.device c
  · exact leaves v.device c

/-! ## 3. Departures -/

theorem mem_workers {i : Nat} {s : Stream} {a : Hand} (hs : v.device.streams[i]? = some s)
    (ha : v.hands[i]? = some (some a)) : a ∈ v.workers :=
  List.mem_filterMap.mpr
    ⟨(some a, s), List.mem_of_getElem? (List.getElem?_zip_eq_some.mpr ⟨ha, hs⟩), rfl⟩

theorem leave_of_rest {i : Nat} {s : Stream} {x : Option Hand} (hs : v.device.streams[i]? = some s)
    (hx : v.hands[i]? = some x) (hmatched : Matched (x, s))
    (hrest : ∀ a, x = some a → a.stage = .resting) : (v.leave i).2 = v.vacated i s := by
  obtain ⟨hi, rfl⟩ := List.getElem?_eq_some_iff.mp hs
  obtain ⟨hi', rfl⟩ := List.getElem?_eq_some_iff.mp hx
  cases hhand : v.hands[i] with
  | some a => simp [leave, hx, hhand, hs, hrest a hhand, vacated]
  | none =>
    -- there is no worker that could go
    have hidle : v.device.streams[i].worker = none := by
      rw [Matched, hhand] at hmatched
      exact Option.map_eq_none_iff.mp hmatched.symm
    have hsame : idled v.device.streams[i] = v.device.streams[i] := by
      rw [idled, ← hidle]
    have hself : v.vacated i v.device.streams[i] = v := by
      rw [vacated, hsame, List.set_getElem_self, ← hhand, List.set_getElem_self]
      simp [monitorWithout, hidle]
    simp [leave, hx, hhand, hself]

theorem set_middle {α : Type} {l l' : List α} {x y : α} {i : Nat} (hi : l.length = i) :
    (l ++ x :: l').set i y = l ++ [y] ++ l' := by
  subst hi
  simp

/-- The device is shut down by letting its workers go one after the other. -/
theorem leave_all (hv : v.Staffed) (hrest : v.AtRest) {j : Nat}
    (hj : j ≤ v.device.streams.length) :
    (v.run ((List.range j).map .leave)).2 =
      { v with
        device := { (v.device.streams.take j).foldl retire v.device with
          streams := (v.device.streams.take j).map idled ++ v.device.streams.drop j }
        hands := List.replicate j none ++ v.hands.drop j } := by
  induction j with
  | zero => rfl
  | succ j ih =>
    have hlt : j < v.device.streams.length := by omega
    have hlt' : j < v.hands.length := hv.length ▸ hlt
    have hmatched : Matched (v.hands[j], v.device.streams[j]) :=
      hv.matched _ (List.mem_of_getElem? (List.getElem?_zip_eq_some.mpr
        ⟨List.getElem?_eq_getElem hlt', List.getElem?_eq_getElem hlt⟩))
    have hstage : ∀ a, v.hands[j] = some a → a.stage = .resting := fun a ha =>
      hrest a (mem_workers (List.getElem?_eq_getElem hlt) (ha ▸ List.getElem?_eq_getElem hlt'))
    have hleft : ((v.device.streams.take j).map idled).length = j := by
      rw [List.length_map, List.length_take, Nat.min_eq_left (Nat.le_of_lt hlt)]
    have hgone : (List.replicate j (none : Option Hand)).length = j := List.length_replicate
    rw [List.range_succ, List.map_append, run_append, ih (by omega)]
    refine (leave_of_rest (s := v.device.streams[j]) (x := v.hands[j]) ?_ ?_ hmatched
      hstage).trans ?_
    · rw [List.getElem?_append_right (Nat.le_of_eq hleft), hleft, List.getElem?_drop,
        Nat.sub_self, Nat.add_zero, List.getElem?_eq_getElem hlt]
    · rw [List.getElem?_append_right (Nat.le_of_eq hgone), hgone, List.getElem?_drop,
        Nat.sub_self, Nat.add_zero, List.getElem?_eq_getElem hlt']
    · have hstreams : ((v.device.streams.take j).map idled ++ v.device.streams.drop j).set j
          (idled v.device.streams[j]) =
          (v.device.streams.take (j + 1)).map idled ++ v.device.streams.drop (j + 1) := by
        rw [List.drop_eq_getElem_cons hlt, set_middle hleft,
          List.take_succ_eq_append_getElem hlt, List.map_append]
        rfl
      have hhands : (List.replicate j none ++ v.hands.drop j).set j none =
          List.replicate (j + 1) none ++ v.hands.drop (j + 1) := by
        rw [List.drop_eq_getElem_cons hlt', set_middle hgone, List.replicate_succ']
      refine (Crew.mk.injEq ..).mpr ⟨?_, hhands, rfl, rfl⟩
      rw [← hstreams, List.take_succ_eq_append_getElem hlt, List.foldl_append, List.foldl_cons,
        List.foldl_nil, retire_eq]
      rfl

theorem leave_everyone (hv : v.Staffed) (hrest : v.AtRest) :
    (v.run ((List.range v.device.streams.length).map .leave)).2.device = v.device.shutDown := by
  rw [leave_all hv hrest (Nat.le_refl _), List.take_length, List.drop_length, List.append_nil,
    foldl_retire, shutDown_eq]
  rfl

end Crew

end Simulator

end Playout

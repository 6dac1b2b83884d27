import Playout.Proofs.Rounds
import Playout.Proofs.Staffing

/-!
# What a simulated device keeps

Calls, workers in all stages of their rounds, and others that use the feeds take turns in any order.
`Crew.Inv` holds throughout.
-/

namespace Playout

namespace Simulator

namespace Crew

variable {v v' : Crew} {log : List Note}

/-! ## 1. The invariant -/

structure Inv (log : List Note) (v : Crew) : Prop where
  staffed : v.Staffed
  custody : Custody v.feeds v.workers
  balanced : Balanced v.device.monitor v.device.recorded v.workers
  roll : Roll log v.hired v.workers
  chronicle : Chronicle log v.device.recorded v.workers

-- The order of the workers does not matter.
theorem Inv.of_perm {as : List Hand} (hworkers : v.workers.Perm as) (hstaffed : v.Staffed)
    (hcustody : Custody v.feeds as) (hbalanced : Balanced v.device.monitor v.device.recorded as)
    (hroll : Roll log v.hired as) (hchronicle : Chronicle log v.device.recorded as) : v.Inv log :=
  ⟨hstaffed, hcustody.perm hworkers, hbalanced.perm hworkers, hroll.perm hworkers,
    hchronicle.perm hworkers⟩

theorem inv_begin (capabilities : Capabilities) (period : Option Duration) {feeds : Nat → Feed}
    (hfeeds : ∀ k, (feeds k).Uniform) : (begin capabilities period feeds).Inv [] where
  staffed := staffed_begin capabilities period feeds
  custody := ⟨hfeeds, List.nodup_nil, fun _ hc => absurd hc List.not_mem_nil,
    fun _ ha => absurd ha List.not_mem_nil⟩
  balanced := ⟨rfl, rfl⟩
  roll := ⟨List.nodup_nil, fun _ hn => absurd hn List.not_mem_nil,
    fun _ ha => absurd ha List.not_mem_nil, fun _ _ => List.not_mem_nil,
    fun _ _ _ _ hn => absurd hn List.not_mem_nil, fun _ _ _ hn => absurd hn List.not_mem_nil,
    List.Pairwise.nil, fun _ => List.not_mem_nil⟩
  chronicle := ⟨rfl, fun _ ha => absurd ha List.not_mem_nil, fun _ _ => rfl⟩

/-! ## 2. Calls and departures -/

/-- A worker is started, or goes, or nothing happens to the workers. -/
theorem Inv.called (hv : v.Inv log) {r : List Note × Crew} (h : Called v r) (hstaffed : r.2.Staffed)
    (hfeeds : r.2.feeds = v.feeds) (hrecorded : r.2.device.recorded = v.device.recorded)
    (hbalanced : ∀ as, Balanced v.device.monitor v.device.recorded as →
      Balanced r.2.device.monitor r.2.device.recorded as) : r.2.Inv (log ++ r.1) := by
  cases h with
  | same v' hworkers hhired =>
    rw [List.append_nil]
    refine .of_perm hworkers hstaffed ?_ (hbalanced _ hv.balanced) ?_ ?_
    · exact hfeeds ▸ hv.custody
    · exact hhired ▸ hv.roll
    · exact hrecorded ▸ hv.chronicle
  | started v' a hworkers hnumber hrest hhired =>
    have hnew : ∀ b ∈ v.workers, b.number ≠ a.number := fun b hb hsame =>
      Nat.lt_irrefl _ (hnumber ▸ hsame ▸ hv.roll.number_lt hb)
    have hchronicle := (hv.chronicle.cons_resting hrest hnew).tell
      (n := .started a.number a.feed) rfl (fun _ => rfl) fun _ => rfl
    refine .of_perm hworkers hstaffed ?_ ?_ ?_ ?_
    · exact hfeeds ▸ hv.custody.cons_resting hrest
    · exact (Balanced.cons_resting_iff hrest).mpr (hbalanced _ hv.balanced)
    · exact hhired ▸ hv.roll.hire hnumber
    · exact hrecorded ▸ hchronicle
  | left v' a hworkers hrest hhired =>
    have hcustody := hv.custody.perm hworkers.symm
    have hbalanced' := hbalanced _ (hv.balanced.perm hworkers.symm)
    have hchronicle := ((hv.chronicle.perm hworkers.symm).tail hrest).tell
      (n := .left a.number) rfl (fun _ => rfl) fun _ => rfl
    refine .of_perm (List.Perm.refl _) hstaffed ?_ ?_ ?_ ?_
    · exact hfeeds ▸ hcustody.tail
    · exact (Balanced.cons_resting_iff hrest).mp hbalanced'
    · exact hhired ▸ (hv.roll.perm hworkers.symm).leave
    · exact hrecorded ▸ hchronicle

theorem Inv.call (hv : v.Inv log) (c : Call) : (v.call c).2.Inv (log ++ (v.call c).1) := by
  obtain ⟨hcalled, hstaffed⟩ := hv.staffed.call c
  have hleaves := leaves_call v c
  refine hv.called hcalled hstaffed (feeds_call v c) hleaves.recorded fun as has => ?_
  rw [hleaves.monitor, hleaves.recorded]
  exact ⟨has.pulls, has.bytes⟩

theorem Inv.leave (hv : v.Inv log) (i : Nat) : (v.leave i).2.Inv (log ++ (v.leave i).1) := by
  have hstay : v.Inv (log ++ []) := by rwa [List.append_nil]
  unfold Crew.leave
  split
  next s a hs ha =>
    split
    next hrest =>
      obtain ⟨hcalled, hstaffed⟩ := hv.staffed.vacated hs ha fun _ h => Option.some.inj h ▸ hrest
      exact hv.called hcalled hstaffed rfl rfl fun as has => ⟨has.pulls, has.bytes⟩
    next => exact hstay
  next => exact hstay

/-! ## 3. Steps of a worker -/

/-- The worker at a place goes on, and all others stay where they are. -/
theorem Inv.step (hv : v.Inv log) {i : Nat} {s s' : Stream} {a : Hand} {g : Stage}
    {notes : List Note} (hs : v.device.streams[i]? = some s) (ha : v.hands[i]? = some (some a))
    (hworker : s'.worker.map (·.feed.number) = s.worker.map (·.feed.number))
    (hstreams : v'.device.streams = v.device.streams.set i s')
    (hhands : v'.hands = v.hands.set i (some (a.reach g)))
    (hrunning : v'.device.monitor.workers = v.device.monitor.workers)
    (hcustody : ∀ rest, Custody v.feeds (a :: rest) → Custody v'.feeds (a.reach g :: rest))
    (hbalanced : ∀ rest, Balanced v.device.monitor v.device.recorded (a :: rest) →
      Balanced v'.device.monitor v'.device.recorded (a.reach g :: rest))
    (hroll : ∀ rest, Roll log v.hired (a :: rest) →
      Roll (log ++ notes) v'.hired (a.reach g :: rest))
    (hchronicle : ∀ rest, ((a :: rest).map (·.number)).Nodup →
      Chronicle log v.device.recorded (a :: rest) →
      Chronicle (log ++ notes) v'.device.recorded (a.reach g :: rest)) :
    v'.Inv (log ++ notes) := by
  obtain ⟨x, rest, hx, hbefore, -, hafter, -⟩ := zip_at hv.staffed.length hs
  obtain rfl : x = some a := Option.some.inj (hx.symm.trans ha)
  have hafter' : v'.entries.Perm ([(some (a.reach g), s')] ++ rest) := by
    rw [entries, hstreams, hhands]
    exact hafter _ _
  have hmatched : Matched (some a, s) :=
    hv.staffed.matched _ (hbefore.mem_iff.mpr List.mem_cons_self)
  have hworked : s'.worker.isSome = s.worker.isSome := by
    simpa using congrArg Option.isSome hworker
  have hstaffed : v'.Staffed := by
    refine hv.staffed.replace [(some a, s)] [(some (a.reach g), s')] hbefore hafter' ?_ ?_ ?_ ?_
    · rw [hstreams, hhands, List.length_set, List.length_set, hv.staffed.length]
    · rintro e (_ | ⟨_, ⟨⟩⟩)
      exact hmatched.trans hworker.symm
    · rw [hstreams, List.length_set]
      exact hv.staffed.limit
    · rw [hrunning, countP_isWorked, countP_isWorked, hworked]
  have hworkers := (workers_perm [(some a, s)] hbefore).symm
  have hroll' := hv.roll.perm hworkers
  exact .of_perm (workers_perm [(some (a.reach g), s')] hafter') hstaffed
    (hcustody _ (hv.custody.perm hworkers)) (hbalanced _ (hv.balanced.perm hworkers))
    (hroll _ hroll') (hchronicle _ hroll'.nodup (hv.chronicle.perm hworkers))

/-- The worker at a place makes its next step. -/
theorem Inv.advance (hv : v.Inv log) {i : Nat} {s : Stream} {a : Hand}
    (hs : v.device.streams[i]? = some s) (ha : v.hands[i]? = some (some a)) :
    (v.advance i s a).2.Inv (log ++ (v.advance i s a).1) := by
  have hself : v.device.streams = v.device.streams.set i s := by
    obtain ⟨hi, rfl⟩ := List.getElem?_eq_some_iff.mp hs
    rw [List.set_getElem_self]
  -- a step that only counts
  have htally : ∀ {g : Stage} {m : Monitor}, m.workers = v.device.monitor.workers →
      g.held? = a.stage.held? → g.pending = a.stage.pending →
      (∀ rest, Balanced v.device.monitor v.device.recorded (a :: rest) →
        Balanced m v.device.recorded (a.reach g :: rest)) →
      (v.tally m i (a.reach g)).Inv (log ++ []) := by
    intro g m hrunning hheld hpending hbalanced
    refine hv.step hs ha rfl hself rfl hrunning (fun _ h => h.reach hheld) hbalanced ?_ ?_
    · rw [List.append_nil]
      exact fun _ h => h.reach g
    · rw [List.append_nil]
      exact fun _ _ h => h.reach hpending
  unfold Crew.advance
  split
  next hstage =>
    refine hv.step hs ha ?_ rfl rfl rfl (fun _ h => h.pulled s.bytes) (fun _ h => ?_)
      (fun _ h => (h.pulled _ _).reach _) fun _ hnodup h => h.pulled hnodup hstage _ _
    · simp [Function.comp_def]
    · exact h.reach (by rw [hstage]; rfl) (by rw [hstage]; rfl)
  next x hstage =>
    exact htally rfl (by rw [hstage]; rfl) (by rw [hstage]; rfl) fun _ h => h.counted hstage
  next x hstage =>
    split
    next hdelivers =>
      refine htally rfl (by rw [hstage]; rfl) ?_ fun _ h => h.measured hstage hdelivers
      rw [hstage, Stage.pending, Stage.pending, hdelivers]
      rfl
    next hunderrun =>
      refine htally rfl (by rw [hstage]; rfl) ?_ fun _ h => h.missed hstage
      rw [hstage, Stage.pending, Stage.pending, if_pos (by simpa using hunderrun)]
  next x hdelivers hstage =>
    have hheld : a.stage.held? = some x := by rw [hstage]; rfl
    have hshown := hv.custody.shown a (mem_workers hs ha) x hheld hdelivers
    dsimp only
    rw [hshown.read]
    exact hv.step hs ha rfl hself rfl rfl (fun _ h => h.reach hheld.symm)
      (fun _ h => h.recorded hstage hshown.size) (fun _ h => (h.recorded _).reach _)
      fun _ hnodup h => h.recorded hnodup hstage
  next x hstage =>
    have hheld : a.stage.held? = some x := by rw [hstage]; rfl
    obtain ⟨f, hdrop⟩ := hv.custody.drop_ok (mem_workers hs ha) hheld
    simp only [hdrop]
    refine hv.step hs ha rfl hself rfl rfl (fun _ h => h.dropped hheld hdrop) (fun _ h => ?_) ?_ ?_
    · exact h.reach (by rw [hstage]; rfl) (by rw [hstage]; rfl)
    · rw [List.append_nil]
      exact fun _ h => h.reach _
    · rw [List.append_nil]
      exact fun _ _ h => h.reach (by rw [hstage]; rfl)

theorem Inv.work (hv : v.Inv log) (i : Nat) : (v.work i).2.Inv (log ++ (v.work i).1) := by
  unfold Crew.work
  split
  next s a hs ha => exact hv.advance hs ha
  next => rwa [List.append_nil]

/-! ## 4. Every run -/

/-- Others use a feed. -/
theorem Inv.tend (hv : v.Inv log) {k : Nat} {f : Feed} (h : v.Tolerates k f) :
    Inv log { v with feeds := Function.update v.feeds k f } where
  staffed := ⟨hv.staffed.length, hv.staffed.matched, hv.staffed.limit, hv.staffed.running⟩
  custody := hv.custody.update h.1 h.2
  balanced := hv.balanced
  roll := hv.roll
  chronicle := hv.chronicle

theorem Inv.move (hv : v.Inv log) (x : Move) : (v.move x).2.Inv (log ++ (v.move x).1) := by
  cases x with
  | call c => exact hv.call c
  | work i => exact hv.work i
  | leave i => exact hv.leave i
  | tend k f =>
    by_cases h : v.Tolerates k f
    · simp only [Crew.move, if_pos h, List.append_nil]
      exact hv.tend h
    · simp only [Crew.move, if_neg h, List.append_nil]
      exact hv

theorem inv_run (capabilities : Capabilities) (period : Option Duration) {feeds : Nat → Feed}
    (hfeeds : ∀ k, (feeds k).Uniform) (xs : List Move) :
    ((begin capabilities period feeds).run xs).2.Inv
      ((begin capabilities period feeds).run xs).1 :=
  run_induction (inv_begin capabilities period hfeeds) (fun _ _ x hu => hu.move x) xs

/-! ## 5. What the invariant says -/

namespace Inv

theorem workers_eq (hv : v.Inv log) :
    v.device.monitor.workers = UInt64.ofNat (v.device.streams.countP (·.worker.isSome)) := by
  rw [hv.staffed.running, ← hv.staffed.map_snd_entries, List.countP_map]
  rfl

-- The word never wraps: there are not that many streams.
theorem running (hv : v.Inv log) :
    v.device.monitor.running = v.device.streams.countP (·.worker.isSome) := by
  have hlimit : v.device.streams.countP (·.worker.isSome) ≤ streamLimit :=
    Nat.le_trans List.countP_le_length hv.staffed.limit
  have hword : streamLimit < UInt64.size := by decide
  rw [Monitor.running, hv.workers_eq]
  exact UInt64.toNat_ofNat_of_lt' (Nat.lt_of_le_of_lt hlimit hword)

theorem running_shutDown (hv : v.Inv log) : v.device.shutDown.monitor.running = 0 := by
  rw [shutDown_eq, Monitor.running, hv.workers_eq, UInt64.sub_self]
  rfl

/-- A stream that is worked for has its worker beside it, and the calls that end the worker wait for
it to rest and then tell that it is gone. -/
theorem exists_leaving (hv : v.Inv log) {h : Handle} {s : Stream} {w : Worker}
    (hs : v.device.stream? h = some s) (hw : s.worker = some w) :
    ∃ a ∈ v.workers, a.feed = w.feed.number ∧ ∀ c, c = .stop h ∨ c = .destroy h →
      if a.stage = .resting then (v.call c).1 = [.left a.number] else v.call c = ([], v) := by
  obtain ⟨i, hi, hat⟩ := exists_place hs
  obtain ⟨x, rest, hx, hperm, -⟩ := zip_at hv.staffed.length hat
  have hmatched : Matched (x, s) := hv.staffed.matched _ (hperm.mem_iff.mpr List.mem_cons_self)
  rw [Matched, hw] at hmatched
  obtain ⟨a, rfl, hfeed⟩ := Option.map_eq_some_iff.mp hmatched
  refine ⟨a, mem_workers hat hx, hfeed, fun c hc => ?_⟩
  have hleaving : v.leaving? c = some a := by
    obtain ⟨hstop, hdestroy⟩ := leaving?_of_place hi hx
    obtain rfl | rfl := hc
    · exact hstop
    · exact hdestroy
  split
  next hrest => rw [call_of_leaving hleaving hrest]
  next hbusy => exact call_of_busy hleaving hbusy

theorem sum_of_rest (hrest : v.AtRest) {f : Stage → Nat} (hf : f .resting = 0) :
    (v.workers.map fun a => f a.stage).sum = 0 := by
  refine List.sum_eq_zero_iff_forall_eq_nat.mpr fun n hn => ?_
  obtain ⟨a, ha, rfl⟩ := List.mem_map.mp hn
  rw [hrest a ha, hf]

theorem pulls (hv : v.Inv log) (hrest : v.AtRest) :
    v.device.monitor.pulls =
      v.device.monitor.underruns + UInt64.ofNat v.device.recorded.size := by
  rw [hv.balanced.pulls, sum_of_rest hrest rfl, Nat.add_zero]

theorem deliveredBytes (hv : v.Inv log) (hrest : v.AtRest) :
    v.device.monitor.deliveredBytes = UInt64.ofNat (totalSize v.device.recorded) := by
  rw [hv.balanced.bytes, sum_of_rest hrest rfl, Nat.add_zero]

/-- What a worker recorded is what it was given, but for a buffer that it may still hold. -/
theorem exists_pending (hv : v.Inv log) (w : Nat) :
    ∃ l, log.filterMap (Note.recordedBy? w) ++ l = log.filterMap (Note.deliveredTo? w) ∧
      (v.AtRest → l = []) := by
  by_cases hw : ∃ a ∈ v.workers, a.number = w
  · obtain ⟨a, ha, rfl⟩ := hw
    refine ⟨a.stage.pending, hv.chronicle.busy a ha, fun hrest => ?_⟩
    rw [hrest a ha]
    rfl
  · refine ⟨[], ?_, fun _ => rfl⟩
    rw [List.append_nil]
    exact hv.chronicle.gone w fun a ha hsame => hw ⟨a, ha, hsame⟩

end Inv

/-! ## 6. Others -/

theorem Inv.tolerates (hv : v.Inv log) {k : Nat} {f : Feed} (h : (v.feeds k).Yields f) :
    v.Tolerates k f :=
  ⟨h.uniform (hv.custody.uniform k), fun c hc hk => h.reading c.2 (hk ▸ hv.custody.consumed c hc)⟩

/-! ## 7. Books -/

/-- Whatever is called, however the workers' rounds mix with the calls and with each other, and
whatever becomes of the feeds besides:

* there are at most `streamLimit` streams, and this is the only reason to be out of handles;
* a call that fails changes nothing, and neither does one on a stream that is not there;
* `running` counts the streams that have a worker, to start one again does nothing, and nobody is
  left when the device is shut down, which is the same as letting the workers go one by one;
* a call that ends a worker waits for it to rest, and once it is gone it does not pull again;
* while all workers rest, the pulls are the underruns and the recorded buffers, and the delivered
  bytes are those of the recorded buffers;
* each worker records what its pulls delivered, in their order, all of it as soon as all rest;
* each worker pulls from the one feed that was registered when it was started;
* no drop fails, and a producer can hand over at any time. -/
theorem keeps_books (capabilities : Capabilities) (period : Option Duration) (feeds : Nat → Feed)
    (hfeeds : ∀ k, (feeds k).Uniform) (xs : List Move) :
    let log := ((begin capabilities period feeds).run xs).1
    let v := ((begin capabilities period feeds).run xs).2
    let d := v.device
    d.streams.length ≤ streamLimit ∧
    (∀ bytes, (d.create bytes).1 = .error .noHandle ↔ d.streams.length = streamLimit) ∧
    (∀ c e, (d.perform c).1 = .error e → (d.perform c).2 = d ∧ v.call c = ([], v)) ∧
    (∀ c h, c.handle? = some h → d.stream? h = none →
      (d.perform c).2 = d ∧ v.call c = ([], v)) ∧
    d.monitor.running = d.streams.countP (·.worker.isSome) ∧
    (∀ h s rate stereo, d.stream? h = some s → s.worker.isSome →
      d.perform (.start h rate stereo) = (.ok (.started none), d) ∧
        v.call (.start h rate stereo) = ([], v)) ∧
    (d.shutDown.monitor.running = 0 ∧
      (v.AtRest →
        (v.run ((List.range d.streams.length).map .leave)).2.device = d.shutDown)) ∧
    (∀ h s w, d.stream? h = some s → s.worker = some w →
      ∃ a ∈ v.workers, a.feed = w.feed.number ∧ ∀ c, c = .stop h ∨ c = .destroy h →
        if a.stage = .resting then (v.call c).1 = [.left a.number] else v.call c = ([], v)) ∧
    log.Pairwise Retires ∧
    (v.AtRest →
      d.monitor.pulls = d.monitor.underruns + UInt64.ofNat d.recorded.size ∧
      d.monitor.deliveredBytes = UInt64.ofNat (totalSize d.recorded)) ∧
    d.recorded.toList = log.filterMap Note.recorded? ∧
    (∀ w, ∃ l, log.filterMap (Note.recordedBy? w) ++ l = log.filterMap (Note.deliveredTo? w) ∧
      (v.AtRest → l = [])) ∧
    (∀ h s feed rate stereo p, d.stream? h = some s → s.feed = some feed →
      (d.perform (.start h rate stereo)).1 = .ok (.started (some p)) →
      (v.call (.start h rate stereo)).1 = [.started v.hired feed.number]) ∧
    (∀ w k p data, .pulled w k p data ∈ log → ∀ k', .started w k' ∈ log ↔ k' = k) ∧
    (∀ e, .fault e ∉ log) ∧
    (∀ k edits s f, (v.feeds k).commit edits = .ok (s, f) → v.Tolerates k f) := by
  intro log v d
  have hv : v.Inv log := inv_run capabilities period hfeeds xs
  refine ⟨hv.staffed.limit, fun bytes => ?_,
    fun c e he => ⟨perform_of_error he, call_of_error he⟩,
    fun c h hc hs => ⟨perform_of_unknown hc hs, call_of_unknown hc hs⟩, hv.running,
    fun h s rate stereo hs hworker => ⟨?_, call_of_started hs hworker rate stereo⟩,
    ⟨hv.running_shutDown, leave_everyone hv.staffed⟩, fun h s w => hv.exists_leaving,
    hv.roll.retires, fun hrest => ⟨hv.pulls hrest, hv.deliveredBytes hrest⟩, hv.chronicle.tape,
    hv.exists_pending, fun h s feed rate stereo p hs hfeed hr => ?_,
    fun w k p data hpulled k' => ?_,
    hv.roll.sound, fun k edits s f hcommit => hv.tolerates (.commit hcommit)⟩
  · rw [create_eq_noHandle_iff]
    exact ⟨fun hfull => Nat.le_antisymm hv.staffed.limit hfull, fun h => Nat.le_of_eq h.symm⟩
  · simp only [perform, start_of_started hs hworker]
  · rw [call_of_hired rfl (hired?_start hs hfeed hr)]
  · have hstarted := hv.roll.source w k p data hpulled
    exact ⟨fun h => hv.roll.once w k' k h hstarted, fun h => h ▸ hstarted⟩

/-- Two workers pull from one feed to which one buffer has been handed over: one pull delivers it,
the other finds nothing.  The second worker is to be stopped in the middle of its round, and the
first one goes with the device. -/
theorem keeps_books_of_shared :
    let feed : Feed := .ofBuffers (.zeroed true 4) ⟨.pcm8, .mono, 8000⟩ .silence
    let opening : List Move := [.call (.create 4), .call (.create 4),
      .call (.register ⟨0⟩ ⟨0, feed.format⟩), .call (.register ⟨1⟩ ⟨0, feed.format⟩),
      .call (.start ⟨0⟩ 8000 false), .call (.start ⟨1⟩ 8000 false)]
    let handed : Feed := match feed.commit [.fill 7] with
      | .ok (_, f) => f
      | .error _ => feed
    let xs := opening ++ [.tend 0 handed, .work 0, .work 1, .work 1, .call (.stop ⟨1⟩), .work 0,
      .work 1, .work 0, .work 0, .work 1, .call (.stop ⟨1⟩), .work 0]
    let v := ((begin .linear none fun _ => feed).run xs).2
    v.AtRest ∧ v.device.monitor.underruns = 1 ∧ v.device.recorded = #[#[7, 7, 7, 7]] ∧
      v.device.monitor.pulls = 2 ∧ v.device.monitor.running = 1 ∧
      v.device.shutDown.monitor.running = 0 := by
  intro feed opening handed xs v
  have hrest : v.AtRest := by unfold AtRest; decide +kernel
  have hunderruns : v.device.monitor.underruns = 1 := by decide +kernel
  have hrecorded : v.device.recorded = #[#[7, 7, 7, 7]] := by decide +kernel
  obtain ⟨-, -, -, -, hrunning, -, ⟨hshut, -⟩, -, -, hbooks, -⟩ :=
    keeps_books .linear none (fun _ => feed) (fun _ => Feed.uniform_ofBuffers true 4 _ _) xs
  refine ⟨hrest, hunderruns, hrecorded, ?_, ?_, hshut⟩
  · rw [(hbooks hrest).1, hunderruns, hrecorded]
    rfl
  · rw [hrunning]
    decide +kernel

end Crew

end Simulator

end Playout

import Playout.Bench.Playthrough
import Playout.Proofs.Bookkeeping
import Playout.Proofs.Clock
import Playout.Proofs.Discipline

/-!
# A session among the streams of others

A simulated device may have had streams before a session uses it, and they stay there.  Of the other
streams the session has at most one, its own: with the buffer size and the feed of the open stream,
and with a worker exactly while the session plays.  The worker pulls as often as the buffer would be
played out.

Handles are given out in turn and come round again, so a session's stream may get the name of an older
one.  Then every call of the session goes to that one.
-/

namespace Playout

namespace Simulator

/-! ## 1. Streams of one's own -/

/-- Apart from streams with the names of others the device has these, in some order. -/
def Apart (others : List Handle) (d : Simulator) (own : List Stream) : Prop :=
  (d.streams.filter fun s => decide (s.handle ∉ others)).Perm own

variable {others : List Handle} {d d' : Simulator} {own : List Stream} {h : Handle} {i : Nat}
  {s t : Stream}

/-- One place and all others, as far as a property goes. -/
theorem filter_at {α : Type} {l : List α} {x : α} (hx : l[i]? = some x) (p : α → Bool) :
    ∃ rest, (l.filter p).Perm ([x].filter p ++ rest) ∧
      (∀ y, ((l.set i y).filter p).Perm ([y].filter p ++ rest)) ∧
      ((swapRemove l i).filter p).Perm rest := by
  obtain ⟨hi, rfl⟩ := List.getElem?_eq_some_iff.mp hx
  have hset : ∀ y, ((l.set i y).filter p).Perm ([y].filter p ++ (l.eraseIdx i).filter p) :=
    fun y => by
      have hperm := (List.set_perm_cons_eraseIdx hi y).filter p
      rwa [← List.singleton_append, List.filter_append] at hperm
  refine ⟨(l.eraseIdx i).filter p, ?_, hset, (swapRemove_perm hi).filter p⟩
  have hself := hset l[i]
  rwa [List.set_getElem_self] at hself

theorem handle_of_place (hi : d.place? h = some i) (hat : d.streams[i]? = some s) :
    s.handle = h :=
  handle_of_stream? ((stream?_of_place? hi).trans hat)

theorem filter_of_other (hs : s.handle ∈ others) :
    [s].filter (fun s => decide (s.handle ∉ others)) = [] := by simp [hs]

theorem filter_of_own (hs : s.handle ∉ others) :
    [s].filter (fun s => decide (s.handle ∉ others)) = [s] := by simp [hs]

namespace Apart

theorem of_streams (ha : Apart others d own) (hd' : d'.streams = d.streams) :
    Apart others d' own := by
  unfold Apart
  rw [hd']
  exact ha

-- What is done to another one's stream.
theorem set_other (ha : Apart others d own) (hat : d.streams[i]? = some s)
    (hd' : d'.streams = d.streams.set i t) (hs : s.handle ∈ others) (ht : t.handle ∈ others) :
    Apart others d' own := by
  obtain ⟨rest, hbefore, hafter, -⟩ := filter_at hat fun s => decide (s.handle ∉ others)
  have hset := hafter t
  rw [filter_of_other hs] at hbefore
  rw [filter_of_other ht, ← hd'] at hset
  exact hset.trans (hbefore.symm.trans ha)

theorem remove_other (ha : Apart others d own) (hat : d.streams[i]? = some s)
    (hd' : d'.streams = swapRemove d.streams i) (hs : s.handle ∈ others) :
    Apart others d' own := by
  obtain ⟨rest, hbefore, -, hremoved⟩ := filter_at hat fun s => decide (s.handle ∉ others)
  rw [filter_of_other hs] at hbefore
  rw [← hd'] at hremoved
  exact hremoved.trans (hbefore.symm.trans ha)

/-- A call under the name of another one's stream is none of the session's. -/
theorem perform_other (ha : Apart others d own) (hh : h ∈ others) {c : Call}
    (hc : c.handle? = some h) : Apart others (d.perform c).2 own := by
  have heffect := d.effect c
  generalize d.perform c = r at heffect ⊢
  cases heffect with
  | failed | unknown | already | gained => exact ha
  | created => cases hc
  | registered h' feed i s hi hat | stopped h' i s hi hat =>
    cases hc
    have hs : s.handle ∈ others := handle_of_place hi hat ▸ hh
    exact ha.set_other hat rfl hs hs
  | started h' rate stereo i s feed period hi hat =>
    cases hc
    have hs : s.handle ∈ others := handle_of_place hi hat ▸ hh
    exact ha.set_other hat rfl hs hs
  | destroyed h' i s hi hat =>
    cases hc
    exact ha.remove_other hat rfl (handle_of_place hi hat ▸ hh)

theorem mem_others (ha : Apart others d []) (hat : d.streams[i]? = some s) : s.handle ∈ others := by
  have hnone := List.filter_eq_nil_iff.mp (List.perm_nil.mp ha) s (List.mem_of_getElem? hat)
  simpa using hnone

theorem eq_own (ha : Apart others d [s]) (hat : d.streams[i]? = some t) (ht : t.handle ∉ others) :
    t = s := by
  apply List.mem_singleton.mp
  apply ha.mem_iff.mp
  exact List.mem_filter.mpr ⟨List.mem_of_getElem? hat, decide_eq_true ht⟩

-- The one stream that is the session's own.
theorem exists_place (ha : Apart others d [s]) (hs : s.handle ∉ others) :
    ∃ i, d.place? s.handle = some i ∧ d.streams[i]? = some s := by
  have hfound := ha.mem_iff.mpr (List.mem_singleton.mpr rfl)
  have hmem : s ∈ d.streams := (List.mem_filter.mp hfound).1
  cases hstream : d.stream? s.handle with
  | none => exact absurd rfl (stream?_eq_none_iff.mp hstream s hmem)
  | some t =>
    obtain ⟨i, hi, hat⟩ := Simulator.exists_place hstream
    obtain rfl := ha.eq_own hat (handle_of_place hi hat ▸ hs)
    exact ⟨i, hi, hat⟩

-- Nothing else is there but the streams of others.
theorem rest_eq_nil {rest : List Stream} (ha : Apart others d [s])
    (hbefore : (d.streams.filter fun s => decide (s.handle ∉ others)).Perm ([s] ++ rest)) :
    rest = [] := by
  have hlength := (hbefore.symm.trans ha).length_eq
  simpa using hlength

theorem set_own (ha : Apart others d [s]) (hat : d.streams[i]? = some s)
    (hd' : d'.streams = d.streams.set i t) (hs : s.handle ∉ others) (ht : t.handle ∉ others) :
    Apart others d' [t] := by
  obtain ⟨rest, hbefore, hafter, -⟩ := filter_at hat fun s => decide (s.handle ∉ others)
  have hset := hafter t
  rw [filter_of_own hs] at hbefore
  rw [filter_of_own ht, ← hd', ha.rest_eq_nil hbefore] at hset
  exact hset

theorem remove_own (ha : Apart others d [s]) (hat : d.streams[i]? = some s)
    (hd' : d'.streams = swapRemove d.streams i) (hs : s.handle ∉ others) :
    Apart others d' [] := by
  obtain ⟨rest, hbefore, -, hremoved⟩ := filter_at hat fun s => decide (s.handle ∉ others)
  rw [filter_of_own hs] at hbefore
  rw [← hd', ha.rest_eq_nil hbefore] at hremoved
  exact hremoved

-- A new stream is the session's own, unless it has got the name of another one.
theorem append (ha : Apart others d []) (hd' : d'.streams = d.streams ++ [s]) :
    Apart others d' (if s.handle ∈ others then [] else [s]) := by
  unfold Apart at ha ⊢
  rw [hd', List.filter_append, List.perm_nil.mp ha]
  split
  next hs =>
    rw [filter_of_other hs]
    exact .refl _
  next hs =>
    rw [filter_of_own hs]
    exact .refl _

end Apart

/-! ## 2. The calls of a session -/

/-- The device's stream goes with the open stream of the session. -/
structure Stream.Serves (s : Stream) (st : Playout.Stream) : Prop where
  handle : s.handle = st.handle
  bytes : s.bytes = st.feed.bufferBytes
  feed : s.feed = some st.ref
  idle : st.isRunning = false → s.worker = none
  -- The worker pulls as often as the frames of the buffer would be played out.
  busy : st.isRunning = true → ∃ w, s.worker = some w ∧
    w.period = st.format.playTime (8 * st.feed.bufferBytes / st.format.frameBits)

variable {st st' : Playout.Stream}

theorem Stream.Serves.congr (hserves : s.Serves st) (halike : st.Alike st')
    (hroom : st'.feed.bufferBytes = st.feed.bufferBytes) : s.Serves st' := by
  have hformat : st'.format = st.format := congrArg FeedRef.format halike.ref
  constructor
  case handle => rw [halike.handle, hserves.handle]
  case bytes => rw [hroom, hserves.bytes]
  case feed => rw [halike.ref, hserves.feed]
  case idle => rw [halike.isRunning]; exact hserves.idle
  case busy => rw [halike.isRunning, hroom, hformat]; exact hserves.busy

/-- What a session hears of a start. -/
theorem transport_start (d : Simulator) (h : Handle) (rate : UInt32) (stereo : Bool) :
    Transport.start d h rate stereo =
      match d.start h rate stereo with
      | .ok (_, d') => (.ok (), d')
      | .error (.refused e) => (.error e, d)
      | .error .overflow => (.error (.other StartFailure.overflow.message), d) := by
  simp only [Transport.start, startOrRefuse]
  cases d.start h rate stereo with
  | ok r => rfl
  | error e => cases e <;> rfl

theorem played_ref (st : Playout.Stream) :
    played st.ref st.format.frameRate st.format.layout.isStereo = st.format := by
  show (⟨st.format.encoding, _, st.format.frameRate⟩ : Format) = st.format
  rcases st.format with ⟨encoding, layout, rate⟩
  cases layout <;> rfl

/-- Without a fixed period it is the playing time of the frames in the buffer, as long as the bits of
the buffer can be counted. -/
theorem Stream.Serves.periodFor?_eq_some_iff (hserves : s.Serves st) (hnatural : d.period = none)
    {p : Duration} :
    d.periodFor? s st.ref st.format.frameRate st.format.layout.isStereo = some p ↔
      8 * st.feed.bufferBytes < wordLimit ∧
        p = st.format.playTime (8 * st.feed.bufferBytes / st.format.frameBits) := by
  have hperiod : d.periodFor? s st.ref st.format.frameRate st.format.layout.isStereo = some p ↔ _ :=
    Simulator.periodFor?_eq_some_iff hnatural st.format.frameRate st.format.layout.isStereo
  rwa [played_ref, hserves.bytes] at hperiod

namespace Apart

theorem stream? (ha : Apart others d [s]) (hserves : s.Serves st) (hname : st.handle ∉ others) :
    d.stream? st.handle = some s := by
  rw [← hserves.handle] at hname ⊢
  obtain ⟨i, hi, hat⟩ := ha.exists_place hname
  exact (stream?_of_place? hi).trans hat

/-- A start of the session's own stream, if it has no worker and its bits can be counted. -/
theorem start_of_idle (ha : Apart others d [s]) (hserves : s.Serves st) (hname : st.handle ∉ others)
    (hnatural : d.period = none) (hidle : st.isRunning = false)
    (hword : 8 * st.feed.bufferBytes < wordLimit) :
    ∃ d', d.start st.handle st.format.frameRate st.format.layout.isStereo =
        .ok (some (st.format.playTime (8 * st.feed.bufferBytes / st.format.frameBits)), d') ∧
      d'.period = none ∧
      ∃ s', Apart others d' [s'] ∧ s'.Serves { st with phase := .playing } := by
  have hown : s.handle ∉ others := by rwa [hserves.handle]
  obtain ⟨i, hi, hat⟩ := ha.exists_place hown
  have hperiod := (hserves.periodFor?_eq_some_iff hnatural).mpr ⟨hword, rfl⟩
  rw [hserves.handle] at hi
  rw [start_of_place hi hat (hserves.idle hidle) hserves.feed, hperiod]
  refine ⟨_, rfl, hnatural, _, ha.set_own hat rfl hown hown, ?_⟩
  exact ⟨hserves.handle, hserves.bytes, hserves.feed, nofun, fun _ => ⟨_, rfl, rfl⟩⟩

theorem start_of_overflow (ha : Apart others d [s]) (hserves : s.Serves st)
    (hname : st.handle ∉ others) (hnatural : d.period = none) (hidle : st.isRunning = false)
    (hword : wordLimit ≤ 8 * st.feed.bufferBytes) :
    d.start st.handle st.format.frameRate st.format.layout.isStereo = .error .overflow := by
  have hown : s.handle ∉ others := by rwa [hserves.handle]
  obtain ⟨i, hi, hat⟩ := ha.exists_place hown
  have hperiod : d.periodFor? s st.ref st.format.frameRate st.format.layout.isStereo = none :=
    Option.eq_none_iff_forall_ne_some.mpr fun p hp =>
      Nat.not_le.mpr ((hserves.periodFor?_eq_some_iff hnatural).mp hp).1 hword
  rw [hserves.handle] at hi
  rw [start_of_place hi hat (hserves.idle hidle) hserves.feed, hperiod]

/-- However a start of the session's own stream ends. -/
theorem start (ha : Apart others d [s]) (hserves : s.Serves st) (hname : st.handle ∉ others)
    (hnatural : d.period = none) {r : Except Refusal Unit}
    (hstart : Transport.start d st.handle st.format.frameRate st.format.layout.isStereo =
      (r, d')) :
    d'.period = none ∧ ∃ s', Apart others d' [s'] ∧
      (r = .ok () → s'.Serves { st with phase := .playing }) ∧ (∀ e, r = .error e → s'.Serves st) := by
  rw [transport_start] at hstart
  cases hrunning : st.isRunning with
  | true =>
    obtain ⟨w, hw, -⟩ := hserves.busy hrunning
    rw [start_of_started (ha.stream? hserves hname) (by rw [hw]; rfl)] at hstart
    cases hstart
    exact ⟨hnatural, s, ha, fun _ => hserves.congr ⟨rfl, rfl, hrunning.symm⟩ rfl, nofun⟩
  | false =>
    rcases Nat.lt_or_ge (8 * st.feed.bufferBytes) wordLimit with hword | hword
    · obtain ⟨d₁, hok, hnatural₁, s₁, ha₁, hserves₁⟩ :=
        ha.start_of_idle hserves hname hnatural hrunning hword
      rw [hok] at hstart
      cases hstart
      exact ⟨hnatural₁, s₁, ha₁, fun _ => hserves₁, nofun⟩
    · rw [ha.start_of_overflow hserves hname hnatural hrunning hword] at hstart
      cases hstart
      exact ⟨hnatural, s, ha, nofun, fun _ _ => hserves⟩

theorem stop (ha : Apart others d [s]) (hs : s.handle ∉ others) :
    Apart others (d.stop s.handle) [{ s with worker := none }] := by
  obtain ⟨i, hi, hat⟩ := ha.exists_place hs
  rw [stop_of_place hi hat]
  exact ha.set_own hat rfl hs hs

theorem destroy (ha : Apart others d [s]) (hs : s.handle ∉ others) :
    Apart others (d.destroy s.handle) [] := by
  obtain ⟨i, hi, hat⟩ := ha.exists_place hs
  rw [destroy_of_place hi hat]
  exact ha.remove_own hat rfl hs

theorem register (ha : Apart others d [s]) (hs : s.handle ∉ others) (feed : FeedRef) :
    Apart others (d.register s.handle feed).2 [{ s with feed := some feed }] := by
  obtain ⟨i, hi, hat⟩ := ha.exists_place hs
  rw [register_of_place hi hat]
  exact ha.set_own hat rfl hs hs

end Apart

-- Whatever a call is about, the session is told no more than the device does.
theorem start_snd (d : Simulator) (h : Handle) (rate : UInt32) (stereo : Bool) :
    (Transport.start d h rate stereo).2 = (d.perform (.start h rate stereo)).2 := by
  rw [transport_start, perform]
  cases d.start h rate stereo with
  | ok r => rfl
  | error e => cases e <;> rfl

theorem register_snd (d : Simulator) (h : Handle) (feed : FeedRef) :
    (d.register h feed).2 = (d.perform (.register h feed)).2 := by
  rw [perform]
  rcases d.register h feed with ⟨e | u, d'⟩ <;> rfl

theorem streams_setGain (d : Simulator) (h : Handle) (gain : Gain) :
    (d.setGain h gain).streams = d.streams := by
  unfold setGain
  split <;> rfl

theorem create_eq_ok {bytes : Nat} (hcreate : d.create bytes = (.ok h, d')) :
    d'.period = d.period ∧ d'.streams = d.streams ++ [⟨h, bytes, none, none⟩] := by
  unfold create at hcreate
  split at hcreate
  · cases hcreate
  · split at hcreate
    · cases hcreate
    · cases hcreate
      exact ⟨rfl, rfl⟩

theorem create_eq_error {bytes : Nat} {e : Refusal} (hcreate : d.create bytes = (.error e, d')) :
    d' = d := by
  unfold create at hcreate
  split at hcreate
  · cases hcreate
    rfl
  · split at hcreate <;> cases hcreate
    rfl

/-- A round of a worker leaves the bytes of its feed alone, and of the device it changes no more than
the number of rounds, the record and what is counted. -/
theorem iterate_eq_ok {f f' : Feed} (hround : d.iterate h f = .ok (d', f')) :
    f.SameBytes f' ∧ d'.period = d.period ∧
      (d'.streams = d.streams ∨
        ∃ i s w, d.streams[i]? = some s ∧ s.worker = some w ∧
          d'.streams =
            d.streams.set i { s with worker := some { w with rounds := w.rounds + 1 } }) := by
  unfold iterate at hround
  split at hround
  next =>
    cases hround
    exact ⟨⟨rfl, rfl, rfl, rfl⟩, rfl, .inl rfl⟩
  next s hs =>
    split at hround
    next =>
      cases hround
      exact ⟨⟨rfl, rfl, rfl, rfl⟩, rfl, .inl rfl⟩
    next w hw =>
      obtain ⟨i, hi, hat⟩ := exists_place hs
      dsimp only at hround
      split at hround
      next g hdrop =>
        cases hround
        refine ⟨(f.sameBytes_pull _).trans (Feed.sameBytes_drop hdrop), rfl,
          .inr ⟨i, s, w, hat, hw, ?_⟩⟩
        exact updateFirst_eq hi hat
      next => cases hround

-- A stream that has just been created takes a feed.
theorem register_of_created (hd' : d'.streams = d.streams ++ [s]) (feed : FeedRef) {e : Refusal}
    {d'' : Simulator} : d'.register s.handle feed ≠ (.error e, d'') := by
  intro hregister
  have hmem : s ∈ d'.streams := by
    rw [hd']
    exact List.mem_append_right _ (List.mem_singleton.mpr rfl)
  unfold Simulator.register at hregister
  split at hregister
  next hnone => exact stream?_eq_none_iff.mp hnone s hmem rfl
  next => cases hregister

end Simulator

/-! ## 3. What the device does not hear of -/

/-- To the device it is the same stream. -/
structure Stream.Unmoved (st st' : Stream) : Prop extends Alike st st' where
  room : st'.feed.bufferBytes = st.feed.bufferBytes

namespace Stream

variable {st st' : Stream}

theorem Unmoved.refl (st : Stream) : st.Unmoved st := ⟨.refl st, rfl⟩

theorem unmoved_countStall (st : Stream) (stalled : Bool) : st.Unmoved (st.countStall stalled) :=
  ⟨st.alike_countStall stalled, (st.continues_countStall stalled).room⟩

theorem unmoved_borrowed (st : Stream) (stalled : Bool) : st.Unmoved (st.borrowed stalled) :=
  ⟨st.alike_borrowed stalled, (st.continues_borrowed stalled).room⟩

theorem unmoved_handedOver (st : Stream) (stalled : Bool) : st.Unmoved (st.handedOver stalled) :=
  ⟨st.alike_handedOver stalled, (st.continues_handedOver stalled).room⟩

-- A feed whose bytes nobody has touched.
theorem unmoved_feed (st : Stream) {f : Feed} (hsame : st.feed.SameBytes f) :
    st.Unmoved { st with feed := f } := by
  refine ⟨⟨rfl, ?_, rfl⟩, hsame.bufferBytes⟩
  rw [ref, ref, format, format, hsame.format]

theorem unmoved_widenActive (h : st.widenActive = .ok st') : st.Unmoved st' := by
  refine ⟨alike_widenActive h, ?_⟩
  obtain ⟨b, rfl⟩ := exists_of_widenActive h
  rfl

end Stream

namespace Playback

/-- A change of the session that makes no difference to the device. -/
inductive Unheard {τ : Type} (p q : Playback τ) : Prop where
  | closed (htransport : q.session.transport = p.session.transport)
      (hp : p.session.stream = none) (hq : q.session.stream = none)
  | opened (htransport : q.session.transport = p.session.transport) (st st' : Stream)
      (hp : p.session.stream = some st) (hq : q.session.stream = some st')
      (hunmoved : st.Unmoved st')

namespace Unheard

variable {τ : Type} {p q : Playback τ}

theorem of_same (htransport : q.session.transport = p.session.transport)
    (hstream : q.session.stream = p.session.stream) : p.Unheard q := by
  cases hst : p.session.stream with
  | none => exact .closed htransport hst (hstream.trans hst)
  | some st => exact .opened htransport st st hst (hstream.trans hst) (.refl st)

theorem setFeed {k : Nat} {f f' : Feed} (hfeed : p.feed? k = some f) (hsame : f.SameBytes f') :
    p.Unheard (p.setFeed k f') := by
  have hstream := p.stream_setFeed k f'
  cases hst : p.session.stream with
  | none =>
    rw [hst, Option.map_none] at hstream
    exact .closed (p.transport_setFeed k f') hst hstream
  | some st =>
    rw [hst, Option.map_some] at hstream
    refine .opened (p.transport_setFeed k f') st _ hst hstream ?_
    split
    next hk =>
      subst hk
      rw [feed?_of_open hst] at hfeed
      cases hfeed
      exact st.unmoved_feed hsame
    next => exact .refl st

theorem withLive (h : p.Unheard q) (live : LivePulls) : p.Unheard { q with live } := by
  cases h with
  | closed htransport hp hq => exact .closed htransport hp hq
  | opened htransport st st' hp hq hunmoved => exact .opened htransport st st' hp hq hunmoved

theorem consume (p : Playback τ) (k : Nat) (c : ConsumerStep) : p.Unheard (p.consume k c).2 := by
  have hend := p.consumption k c
  generalize p.consume k c = r at hend
  cases hend with
  | nothing | peeked | faulted => exact .of_same rfl rfl
  | pulled n f f' hfeed hdrop =>
    exact .setFeed hfeed ((f.sameBytes_pull n).trans (Feed.sameBytes_drop hdrop))
  | held n name f hname hfeed => exact (setFeed hfeed (f.sameBytes_pull n)).withLive _
  | dropped name l f f' hname hfeed hdrop =>
    exact (setFeed hfeed (Feed.sameBytes_drop hdrop)).withLive _

theorem stray (p : Playback τ) (k : Nat) (s : Slot) : p.Unheard (p.stray k s) := by
  unfold Playback.stray
  split
  next => exact .of_same rfl rfl
  next f hfeed => exact .setFeed hfeed ⟨rfl, rfl, rfl, rfl⟩

theorem abandon (p : Playback τ) : p.Unheard p.abandon := by
  unfold Playback.abandon
  split <;> exact .of_same rfl rfl

theorem proceed (p : Playback τ) (stalled : Bool) : p.Unheard (p.proceed stalled).2 := by
  unfold Playback.proceed
  split
  next st hwait hst =>
    have hcounted := st.unmoved_countStall stalled
    split
    next => exact .of_same rfl rfl
    next => split <;> exact .opened rfl st _ hst rfl hcounted
  next => exact .of_same rfl rfl

end Unheard

/-! ## 4. One stream at a time -/

/-- The device has, apart from the streams of others, one for the open stream and no other. -/
inductive Tends (others : List Handle) (p : Playback Simulator) : Prop where
  | closed (hst : p.session.stream = none) (hnatural : p.session.transport.period = none)
      (hown : Simulator.Apart others p.session.transport [])
  -- The open stream has got the name of another one.
  | shadowed (st : Stream) (hst : p.session.stream = some st) (hname : st.handle ∈ others)
      (hnatural : p.session.transport.period = none)
      (hown : Simulator.Apart others p.session.transport [])
  | served (st : Stream) (hst : p.session.stream = some st) (hname : st.handle ∉ others)
      (hnatural : p.session.transport.period = none) (s : Simulator.Stream)
      (hown : Simulator.Apart others p.session.transport [s]) (hserves : s.Serves st)

namespace Tends

variable {others : List Handle} {p q : Playback Simulator} {st st' : Stream}

theorem start (d : Simulator) (c : Settings) (hnatural : d.period = none) :
    Tends (d.streams.map (·.handle)) (new d c) := by
  refine .closed rfl hnatural ?_
  have hnone : d.streams.filter (fun s => decide (s.handle ∉ d.streams.map (·.handle))) = [] := by
    apply List.filter_eq_nil_iff.mpr
    intro s hs
    have hname := List.mem_map_of_mem hs (f := (·.handle))
    simpa using hname
  unfold Simulator.Apart
  show (d.streams.filter _).Perm []
  rw [hnone]

theorem natural (h : Tends others p) : p.session.transport.period = none := by
  cases h with
  | closed _ hnatural | shadowed _ _ _ hnatural | served _ _ _ hnatural => exact hnatural

theorem serves (h : Tends others p) (hst : p.session.stream = some st) (hname : st.handle ∉ others) :
    p.session.transport.period = none ∧
      ∃ s, Simulator.Apart others p.session.transport [s] ∧ s.Serves st := by
  cases h with
  | closed hclosed =>
    rw [hst] at hclosed
    cases hclosed
  | shadowed u hu hname' =>
    rw [hst] at hu
    cases hu
    exact absurd hname' hname
  | served u hu _ hnatural s hown hserves =>
    rw [hst] at hu
    cases hu
    exact ⟨hnatural, s, hown, hserves⟩

theorem of_unheard (h : Tends others p) (hq : p.Unheard q) : Tends others q := by
  cases hq with
  | closed htransport hp hq =>
    cases h with
    | closed hst hnatural hown =>
      exact .closed hq (htransport ▸ hnatural) (htransport ▸ hown)
    | shadowed st hst | served st hst =>
      rw [hp] at hst
      cases hst
  | opened htransport st st' hp hq hunmoved =>
    have hhandle := hunmoved.handle
    cases h with
    | closed hst =>
      rw [hp] at hst
      cases hst
    | shadowed u hst hname hnatural hown =>
      rw [hp] at hst
      cases hst
      exact .shadowed st' hq (hhandle ▸ hname) (htransport ▸ hnatural) (htransport ▸ hown)
    | served u hst hname hnatural s hown hserves =>
      rw [hp] at hst
      cases hst
      exact .served st' hq (hhandle ▸ hname) (htransport ▸ hnatural) s (htransport ▸ hown)
        (hserves.congr hunmoved.toAlike hunmoved.room)

-- The session asks its device to start the open stream, and hears how that ends.
theorem restart (h : Tends others p) (hst : p.session.stream = some st)
    {r : Except Refusal Unit} {t : Simulator} (hstart : p.startOf st = (r, t))
    (htransport : q.session.transport = t) (hq : q.session.stream = some st')
    (hend : r = .ok () ∧ st' = { st with phase := .playing } ∨ (∃ e, r = .error e) ∧ st' = st) :
    Tends others q := by
  subst htransport
  cases h with
  | closed hclosed =>
    rw [hst] at hclosed
    cases hclosed
  | shadowed u hu hname hnatural hown =>
    rw [hst] at hu
    cases hu
    have hhandle : st'.handle = st.handle := by
      obtain ⟨-, rfl⟩ | ⟨-, rfl⟩ := hend <;> rfl
    have hafter : q.session.transport = (Simulator.perform p.session.transport
        (.start st.handle st.format.frameRate st.format.layout.isStereo)).2 := by
      rw [← Simulator.start_snd]
      exact (congrArg Prod.snd hstart).symm
    refine .shadowed st' hq (hhandle ▸ hname) ?_ ?_ <;> rw [hafter]
    · exact (Simulator.leaves _ _).period.trans hnatural
    · exact hown.perform_other hname rfl
  | served u hu hname hnatural s hown hserves =>
    rw [hst] at hu
    cases hu
    obtain ⟨hnatural', s', hown', hok, herror⟩ := hown.start hserves hname hnatural hstart
    obtain ⟨hr, rfl⟩ | ⟨⟨e, hr⟩, rfl⟩ := hend
    · exact .served _ hq hname hnatural' s' hown' (hok hr)
    · exact .served _ hq hname hnatural' s' hown' (herror e hr)

theorem stopped (h : Tends others p) (hst : p.session.stream = some st)
    (htransport : q.session.transport = Transport.stop p.session.transport st.handle)
    (hq : q.session.stream = some { st with phase := .paused }) : Tends others q := by
  have hperiod : q.session.transport.period = none := by
    rw [htransport]
    exact (Simulator.leaves _ (.stop st.handle)).period.trans h.natural
  cases h with
  | closed hclosed =>
    rw [hst] at hclosed
    cases hclosed
  | shadowed u hu hname hnatural hown =>
    rw [hst] at hu
    cases hu
    refine .shadowed _ hq hname hperiod ?_
    rw [htransport]
    exact hown.perform_other (c := .stop st.handle) hname rfl
  | served u hu hname hnatural s hown hserves =>
    rw [hst] at hu
    cases hu
    refine .served _ hq hname hperiod { s with worker := none } ?_ ?_
    · rw [htransport, ← hserves.handle]
      exact hown.stop (hserves.handle ▸ hname)
    · exact ⟨hserves.handle, hserves.bytes, hserves.feed, fun _ => rfl, nofun⟩

theorem gone (h : Tends others p) (hst : p.session.stream = some st)
    (htransport : q.session.transport =
      Transport.destroy (Transport.stop p.session.transport st.handle) st.handle)
    (hq : q.session.stream = none) : Tends others q := by
  have hperiod : q.session.transport.period = none := by
    rw [htransport]
    exact (Simulator.leaves _ (.destroy st.handle)).period.trans
      ((Simulator.leaves _ (.stop st.handle)).period.trans h.natural)
  refine .closed hq hperiod ?_
  rw [htransport]
  cases h with
  | closed hclosed =>
    rw [hst] at hclosed
    cases hclosed
  | shadowed u hu hname hnatural hown =>
    rw [hst] at hu
    cases hu
    have hstopped := hown.perform_other (c := .stop st.handle) hname rfl
    exact hstopped.perform_other (c := .destroy st.handle) hname rfl
  | served u hu hname hnatural s hown hserves =>
    rw [hst] at hu
    cases hu
    have hown' : s.handle ∉ others := hserves.handle ▸ hname
    rw [← hserves.handle]
    exact (hown.stop hown').destroy hown'

/-- Opening, whatever becomes of it. -/
theorem opening (h : Tends others p) (hclosed : p.session.stream = none) {mem : Allocator}
    {requested : Format} {r : Except OpeningError Format} {s : Session Simulator}
    (hend : p.session.Opening mem requested (r, s)) (hq : q.session = s) : Tends others q := by
  have hown : Simulator.Apart others p.session.transport [] := by
    cases h with
    | closed _ _ hown => exact hown
    | shadowed st hst | served st hst =>
      rw [hclosed] at hst
      cases hst
  have hnatural := h.natural
  cases hend with
  | noFormat | noMemory =>
    rw [← hq] at hclosed hown hnatural
    exact .closed hclosed hnatural hown
  | notCreated f b e t _ _ hcreate =>
    have hsame : t = p.session.transport := Simulator.create_eq_error hcreate
    subst hsame
    refine .closed ?_ ?_ ?_ <;> rw [hq]
    · exact hclosed
    · exact hnatural
    · exact hown
  | notRegistered f b handle e t t' _ _ hcreate hregister =>
    obtain ⟨-, hstreams⟩ := Simulator.create_eq_ok hcreate
    exact absurd hregister (Simulator.register_of_created hstreams _)
  | installed f b handle t t' threshold _ _ hcreate hregister _ =>
    obtain ⟨hperiod, hstreams⟩ := Simulator.create_eq_ok hcreate
    have hcreated := hown.append hstreams
    have ht' : t' = (Simulator.register t handle ⟨p.session.opens, f⟩).2 :=
      (congrArg Prod.snd hregister).symm
    have hst := congrArg (·.stream) hq
    have htransport : q.session.transport = t'.setGain handle p.session.settings.gain :=
      congrArg (·.transport) hq
    have hsame := t'.streams_setGain handle p.session.settings.gain
    rw [← htransport] at hsame
    have hperiod' : q.session.transport.period = none := by
      rw [htransport, ht', Simulator.register_snd]
      exact (Simulator.leaves _ (.setGain handle _)).period.trans
        ((Simulator.leaves t _).period.trans (hperiod.trans hnatural))
    by_cases hname : handle ∈ others
    · rw [if_pos hname] at hcreated
      have hregistered : Simulator.Apart others t' [] := by
        rw [ht', Simulator.register_snd]
        exact hcreated.perform_other hname rfl
      exact .shadowed _ hst hname hperiod' (hregistered.of_streams hsame)
    · rw [if_neg hname] at hcreated
      have hregistered := hcreated.register hname ⟨p.session.opens, f⟩
      rw [← ht'] at hregistered
      exact .served _ hst hname hperiod' _ (hregistered.of_streams hsame)
        ⟨rfl, rfl, rfl, fun _ => rfl, nofun⟩

theorem finished (h : Tends others p) (hst : p.session.stream = some st) {c : Call} {stalled : Bool}
    {a : Answer} {s : Session Simulator}
    (hend : p.session.Finishing st stalled c (.ok (some (a, s)))) (hq : q.session = s) :
    Tends others q := by
  have hstream : q.session.stream = s.stream := congrArg (·.stream) hq
  have htransport : q.session.transport = s.transport := congrArg (·.transport) hq
  have hhanded := st.unmoved_handedOver stalled
  cases hend with
  | borrow =>
    exact h.of_unheard (.opened htransport st _ hst hstream (st.unmoved_borrowed stalled))
  | commit => exact h.of_unheard (.opened htransport st _ hst hstream hhanded)
  | drain =>
    exact h.of_unheard (.opened htransport st _ hst hstream (st.unmoved_countStall stalled))
  | start _ _ _ t hstart =>
    have hstarted : Tends others { p with session := { p.session with
        transport := t, stream := some { st with phase := .playing } } } :=
      h.restart hst hstart rfl rfl (.inl ⟨rfl, rfl⟩)
    exact hstarted.of_unheard (.opened htransport _ _ rfl hstream
      ⟨⟨hhanded.handle, hhanded.ref, rfl⟩, hhanded.room⟩)
  | refuse _ _ _ e t hstart =>
    have hrefused : Tends others { p with session := { p.session with transport := t } } :=
      h.restart hst hstart rfl hst (.inr ⟨⟨e, rfl⟩, rfl⟩)
    have href : Stream.ref { st.handedOver stalled with
        feed := st.feed.setHandshake st.feed.handshake.cleared } = st.ref := by
      rw [Stream.ref, Stream.ref, st.number_handedOver stalled]
      rfl
    exact hrefused.of_unheard (.opened htransport st _ hst hstream
      ⟨⟨hhanded.handle, href, hhanded.isRunning⟩, rfl⟩)

theorem refuse (h : Tends others p) : Tends others p.refuse.2 := by
  unfold Playback.refuse
  split
  next stalled st hlaunch hst =>
    unfold Session.startFirst
    rcases hstart : Transport.start p.session.transport st.handle st.format.frameRate
      st.format.layout.isStereo with ⟨e | u, t⟩
    · have hrefused : Tends others { p with session := { p.session with transport := t } } :=
        h.restart hst hstart rfl hst (.inr ⟨⟨e, rfl⟩, rfl⟩)
      exact hrefused.of_unheard (.opened rfl st _ hst rfl ⟨⟨rfl, rfl, rfl⟩, rfl⟩)
    · exact h
  next => exact h

theorem transition {es : List Event} (h : Tends others p) (ht : p.Transition es q) :
    Tends others q := by
  cases ht with
  | idle | fault | skipped | entered | paused | resumed | closed | configured =>
    exact h.of_unheard (.of_same rfl rfl)
  | notOpened _ hclosed mem requested e s hend | opened _ hclosed mem requested e s hend =>
    exact h.opening hclosed hend rfl
  | committing _ st st' hst _ _ hwiden =>
    exact h.of_unheard (.opened rfl st st' hst rfl (Stream.unmoved_widenActive hwiden))
  | wrote _ edits st slot hst =>
    exact h.of_unheard (.opened rfl st _ hst rfl ⟨st.alike_write edits, rfl⟩)
  | stopped _ st hst => exact h.stopped hst rfl rfl
  | restarted _ st hst _ t hstart => exact h.restart hst hstart rfl rfl (.inl ⟨rfl, rfl⟩)
  | notRestarted _ st hst _ e t hstart =>
    exact h.restart hst hstart rfl hst (.inr ⟨⟨e, rfl⟩, rfl⟩)
  | closing _ st hst => exact h.gone hst rfl rfl
  | finished c _ st hst stalled a s hend => exact h.finished hst hend rfl
  | handedOver _ st hst _ _ _ stalled =>
    exact h.of_unheard (.opened rfl st _ hst rfl (st.unmoved_handedOver stalled))
  | launched stalled _ st hst t hstart => exact h.restart hst hstart rfl rfl (.inl ⟨rfl, rfl⟩)

/-- Whatever anybody does, the device goes on with the session's stream and no other. -/
theorem move (h : Tends others p) (m : Move) : Tends others (p.move m).2 := by
  cases m with
  | act a =>
    rcases p.step_cases a with ⟨k, c, -, hstep⟩ | ht
    · show Tends others (p.step a).2
      rw [hstep]
      exact h.of_unheard (.consume p k c)
    · exact h.transition ht
  | refuse => exact h.refuse
  | stray k s => exact h.of_unheard (.stray p k s)
  | abandon => exact h.of_unheard (.abandon p)
  | proceed stalled => exact h.of_unheard (.proceed p stalled)

-- A round of a worker, whosever it is.
theorem rolled (h : Tends others p) {d : Simulator} {k : Handle} {f f' : Feed}
    (hround : p.session.transport.iterate k f = .ok (d, f'))
    (htransport : q.session.transport = d) (hq : q.session.stream = p.session.stream) :
    Tends others q := by
  obtain ⟨-, hperiod, hstreams⟩ := Simulator.iterate_eq_ok hround
  have hnatural : q.session.transport.period = none := by
    rw [htransport, hperiod]
    exact h.natural
  rw [← htransport] at hstreams
  have hnone : Simulator.Apart others p.session.transport [] →
      Simulator.Apart others q.session.transport [] := by
    intro hown
    obtain hkept | ⟨i, s, w, hat, hw, hset⟩ := hstreams
    · exact hown.of_streams hkept
    · have hs := hown.mem_others hat
      exact hown.set_other hat hset hs hs
  cases h with
  | closed hst _ hown => exact .closed (hq.trans hst) hnatural (hnone hown)
  | shadowed st hst hname _ hown =>
    exact .shadowed st (hq.trans hst) hname hnatural (hnone hown)
  | served st hst hname _ s hown hserves =>
    have hst' := hq.trans hst
    obtain hkept | ⟨i, s', w, hat, hw, hset⟩ := hstreams
    · exact .served st hst' hname hnatural s (hown.of_streams hkept) hserves
    · by_cases hs' : s'.handle ∈ others
      · exact .served st hst' hname hnatural s (hown.set_other hat hset hs' hs') hserves
      · obtain rfl := hown.eq_own hat hs'
        refine .served st hst' hname hnatural _ (hown.set_own hat hset hs' hs') ?_
        refine ⟨hserves.handle, hserves.bytes, hserves.feed, fun hidle => ?_, fun hbusy => ?_⟩
        · rw [hserves.idle hidle] at hw
          cases hw
        · obtain ⟨w', hw', hperiod'⟩ := hserves.busy hbusy
          rw [hw] at hw'
          cases hw'
          exact ⟨_, rfl, hperiod'⟩

-- A round of the worker of the open stream.
theorem round (h : Tends others p) (hst : p.session.stream = some st) {d : Simulator} {f : Feed}
    (hround : p.session.transport.iterate st.handle st.feed = .ok (d, f)) :
    Tends others { p with
      session := { p.session with transport := d, stream := some { st with feed := f } } } := by
  have hrolled : Tends others { p with session := { p.session with transport := d } } :=
    h.rolled hround rfl rfl
  have hsame := (Simulator.iterate_eq_ok hround).1
  exact hrolled.of_unheard (.opened rfl st _ hst rfl (st.unmoved_feed hsame))

end Tends

/-! ## 5. Beats -/

/-- What can happen next, with the rounds of the workers. -/
inductive Beat where
  | move (m : Move)
  -- A round of the worker of the open stream.
  | round
  -- A round of another worker, whatever its feed holds.
  | elsewhere (h : Handle) (f : Feed)

def pullRound (p : Playback Simulator) : List Event × Playback Simulator :=
  match p.session.pullOnce with
  | .ok s => ([], { p with session := s })
  | .error f => ([.fault f], p)

def pullElsewhere (p : Playback Simulator) (h : Handle) (f : Feed) :
    List Event × Playback Simulator :=
  match p.session.transport.iterate h f with
  | .ok (d, _) => ([], { p with session := { p.session with transport := d } })
  | .error e => ([.fault (.defect e)], p)

def beat (p : Playback Simulator) : Beat → List Event × Playback Simulator
  | .move m => p.move m
  | .round => p.pullRound
  | .elsewhere h f => p.pullElsewhere h f

/-- One beat after the other, with all the events. -/
def beats (p : Playback Simulator) : List Beat → List Event × Playback Simulator
  | [] => ([], p)
  | b :: rest => ((p.beat b).1 ++ ((p.beat b).2.beats rest).1, ((p.beat b).2.beats rest).2)

/-- The ends of a round. -/
inductive Round (p : Playback Simulator) : List Event × Playback Simulator → Prop where
  | nothing (hst : p.session.stream = none) : Round p ([], p)
  | pulled (st : Stream) (hst : p.session.stream = some st) (d : Simulator) (f : Feed)
      (hround : p.session.transport.iterate st.handle st.feed = .ok (d, f)) :
      Round p ([], { p with
        session := { p.session with transport := d, stream := some { st with feed := f } } })
  | faulted (f : Fault) : Round p ([.fault f], p)

theorem round_ends (p : Playback Simulator) : p.Round p.pullRound := by
  unfold pullRound Session.pullOnce
  cases hst : p.session.stream with
  | none => exact .nothing hst
  | some st =>
    dsimp only
    cases hround : p.session.transport.iterate st.handle st.feed with
    | ok r => exact .pulled st hst r.1 r.2 hround
    | error e => exact .faulted _

namespace Tends

variable {others : List Handle} {p : Playback Simulator}

theorem beat (h : Tends others p) (b : Beat) : Tends others (p.beat b).2 := by
  cases b with
  | move m => exact h.move m
  | round =>
    have hend := p.round_ends
    show Tends others p.pullRound.2
    generalize p.pullRound = r at hend
    cases hend with
    | nothing | faulted => exact h
    | pulled st hst d f hround => exact h.round hst hround
  | elsewhere k f =>
    show Tends others (p.pullElsewhere k f).2
    unfold pullElsewhere
    split
    next d f' hround => exact h.rolled hround rfl rfl
    next => exact h

/-- Whatever anybody does, and however often its worker pulls, the device has one stream for the open
stream of the session and no other. -/
theorem beats (h : Tends others p) (bs : List Beat) : Tends others (p.beats bs).2 := by
  induction bs generalizing p with
  | nil => exact h
  | cons b rest ih => exact ih (h.beat b)

end Tends

end Playback

end Playout

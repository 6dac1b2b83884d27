import Playout.Proofs.Calls
import Playout.Proofs.Occupancy

/-!
# Sizes from opening to closing

What a stream is measured by is fixed when it is opened: its format, whether it duplicates mono, and
the size of every buffer.  So is the producer's share of a buffer, which holds exactly the frames
that were asked for in the layout that was asked for, with nothing left over.
-/

namespace Playout

/-! ## 1. The share of a buffer -/

namespace Format

variable {r f : Format} {t : Capabilities} {frames bytes : Nat}

theorem duplicates_iff : Session.duplicates r f = true ↔ r.layout = .mono ∧ f.layout = .stereo := by
  simp [Session.duplicates]

-- Where nothing is duplicated the layout is the one that was asked for.
theorem layout_eq_of_negotiate (h : r.negotiate t = .ok f) (hdup : Session.duplicates r f = false) :
    f.layout = r.layout := by
  obtain ⟨c, -, hlayout, -⟩ := negotiate_eq_ok h
  have hresolved := Layouts.eq_of_resolve hlayout
  split at hresolved
  next hmono =>
    rw [duplicates_iff.mpr ⟨hmono.1, hresolved⟩] at hdup
    cases hdup
  next => exact hresolved

-- Mono frames of a linear encoding take half of what stereo frames take.
theorem byteSize?_mono (hlinear : f.encoding.isLinear = true) (hstereo : f.layout = .stereo)
    (h : f.byteSize? frames = some bytes) :
    (f.withLayout .mono).byteSize? frames = some (frames * (f.encoding.bits / 8)) := by
  have hbits := Encoding.bits_eq_of_isLinear hlinear
  have hmono : frames * (f.withLayout .mono).frameBits = 8 * (frames * (f.encoding.bits / 8)) := by
    show frames * (f.encoding.bits * 1) = _
    rw [Nat.mul_one, hbits, Nat.mul_left_comm, ← hbits]
  have hdouble : frames * f.frameBits = 2 * (frames * (f.withLayout .mono).frameBits) := by
    rw [frameBits, hstereo]
    show frames * (f.encoding.bits * 2) = 2 * (frames * (f.encoding.bits * 1))
    rw [Nat.mul_one, Nat.mul_comm _ 2, Nat.mul_left_comm]
  unfold byteSize? at h ⊢
  split at h
  next hword =>
    rw [if_pos (by omega)]
    congr 1
    omega
  next => cases h

/-- What the producer of a request `r` writes of a buffer in format `f`, and what becomes of it. -/
structure Share (r f : Format) (frames bytes share : Nat) (widens : Bool) : Prop where
  whole : f.byteSize? frames = some bytes
  part : (f.withLayout r.layout).byteSize? frames = some share
  widens_iff : widens = true ↔ r.layout = .mono ∧ f.layout = .stereo
  -- Duplicated samples fill the buffer, and nothing of it is left over.
  widened : widens = true → f.encoding.isLinear = true ∧ bytes = 2 * share ∧
    2 * (f.encoding.bits / 8) ∣ bytes ∧
    ∀ b : Bytes, b.size = bytes →
      b.widen f.encoding = .ok ((b.first share).duplicate (f.encoding.bits / 8))
  same : widens = false → r.layout = f.layout ∧ bytes = share

/-- Whatever has been negotiated, the producer's share is half of the buffer if mono is duplicated
and all of it otherwise. -/
theorem share_of_negotiate (hnegotiate : r.negotiate t = .ok f)
    (hbytes : f.byteSize? frames = some bytes) :
    Share r f frames bytes (if Session.duplicates r f then bytes / 2 else bytes)
      (Session.duplicates r f) := by
  cases hdup : Session.duplicates r f with
  | true =>
    obtain ⟨hmono, hstereo⟩ := duplicates_iff.mp hdup
    obtain ⟨hlinear, hwhole⟩ := Session.whole_pairs_of_duplicates hnegotiate hbytes hdup
    have hpart := byteSize?_mono hlinear hstereo hbytes
    have htwice : bytes = 2 * (frames * (f.encoding.bits / 8)) := by
      rw [hwhole, Nat.mul_left_comm]
    have hhalf : bytes / 2 = frames * (f.encoding.bits / 8) := by omega
    have hwidth : 0 < f.encoding.bits / 8 := by
      have hbits := Encoding.bits_eq_of_isLinear hlinear
      have hpos := f.encoding.bits_pos
      omega
    rw [if_pos rfl]
    refine ⟨hbytes, ?_, iff_of_true rfl ⟨hmono, hstereo⟩, fun _ => ⟨hlinear, ?_, ?_, ?_⟩, nofun⟩
    · rw [hmono, hhalf]
      exact hpart
    · omega
    · rw [hwhole]
      exact Nat.dvd_mul_left _ _
    · rintro b rfl
      exact Bytes.widen_eq_duplicate hlinear hwidth hwhole
  | false =>
    have hlayout := layout_eq_of_negotiate hnegotiate hdup
    have hneither : ¬ (r.layout = .mono ∧ f.layout = .stereo) := by
      rw [← duplicates_iff, hdup]
      nofun
    rw [if_neg nofun]
    refine ⟨hbytes, ?_, iff_of_false nofun hneither, nofun, fun _ => ⟨hlayout.symm, rfl⟩⟩
    rw [← hlayout]
    exact hbytes

end Format

/-! ## 2. What a stream keeps -/

theorem Stream.producerBytes_of_size {st : Stream} {bytes : Nat}
    (h : st.feed.bufferBytes = bytes) :
    st.producerBytes = if st.widens then bytes / 2 else bytes := by
  rw [producerBytes, h]

/-- The same stream later on: whatever has been written into its buffers, none has changed its
size. -/
structure Stream.Lasting (st st' : Stream) : Prop where
  number : st'.number = st.number
  format : st'.format = st.format
  widens : st'.widens = st.widens
  double : st'.feed.handshake.double = st.feed.handshake.double
  silence : st'.feed.silence.size = st.feed.silence.size
  slots : ∀ s, (st'.feed.content s).size = (st.feed.content s).size

namespace Stream.Lasting

variable {st st' : Stream}

theorem refl (st : Stream) : st.Lasting st := ⟨rfl, rfl, rfl, rfl, rfl, fun _ => rfl⟩

theorem trans {st'' : Stream} (h : st.Lasting st') (h' : st'.Lasting st'') : st.Lasting st'' where
  number := h'.number.trans h.number
  format := h'.format.trans h.format
  widens := h'.widens.trans h.widens
  double := h'.double.trans h.double
  silence := h'.silence.trans h.silence
  slots s := (h'.slots s).trans (h.slots s)

theorem sizes (h : st.Lasting st') : st'.feed.sizes = st.feed.sizes := by
  have hmembers : st'.feed.handshake.members = st.feed.handshake.members := by
    rw [Handshake.members, h.double, Handshake.members]
  unfold Buffers.sizes
  rw [hmembers, h.silence]
  congr 1
  exact List.map_congr_left fun s _ => h.slots s

theorem producerBytes (h : st.Lasting st') : st'.producerBytes = st.producerBytes := by
  unfold Stream.producerBytes Buffers.bufferBytes
  rw [h.widens, h.silence]

-- A stream whose bytes nobody has touched.
theorem of_sameBytes (hnumber : st'.number = st.number) (hwidens : st'.widens = st.widens)
    (hsame : st.feed.SameBytes st'.feed)
    (hdouble : st'.feed.handshake.double = st.feed.handshake.double) : st.Lasting st' where
  number := hnumber
  format := hsame.format
  widens := hwidens
  double := hdouble
  silence := hsame.bufferBytes
  slots s := by rw [hsame.content]

-- A stream one slot of which has other bytes than before.
theorem of_setContent {s : Slot} {b : Bytes} (hsize : b.size = (st.feed.content s).size) :
    st.Lasting { st with feed := st.feed.setContent s b } where
  number := rfl
  format := rfl
  widens := rfl
  double := rfl
  silence := rfl
  slots t := by
    show ((st.feed.setContent s b).content t).size = _
    rw [Feed.content_setContent]
    split
    next ht => rw [ht, hsize]
    next => rfl

theorem countStall (st : Stream) (stalled : Bool) : st.Lasting (st.countStall stalled) := by
  cases stalled <;> exact .of_sameBytes rfl rfl ⟨rfl, rfl, rfl, rfl⟩ rfl

theorem borrowed (st : Stream) (stalled : Bool) : st.Lasting (st.borrowed stalled) := by
  refine of_sameBytes (st.number_borrowed stalled) (st.widens_borrowed stalled) ?_ ?_ <;>
    rw [feed_borrowed]
  · exact ⟨rfl, rfl, rfl, rfl⟩
  · rfl

theorem handedOver (st : Stream) (stalled : Bool) : st.Lasting (st.handedOver stalled) := by
  refine of_sameBytes (st.number_handedOver stalled) (st.widens_handedOver stalled) ?_ ?_ <;>
    rw [feed_handedOver]
  · exact ⟨rfl, rfl, rfl, rfl⟩
  · exact st.feed.handshake.double_handed

theorem cleared (st : Stream) :
    st.Lasting { st with feed := st.feed.setHandshake st.feed.handshake.cleared } :=
  of_sameBytes rfl rfl ⟨rfl, rfl, rfl, rfl⟩ rfl

theorem inPhase (st : Stream) (phase : Phase) : st.Lasting { st with phase } :=
  of_sameBytes rfl rfl ⟨rfl, rfl, rfl, rfl⟩ rfl

theorem write (st : Stream) (edits : List Edit) : st.Lasting (st.write edits) :=
  of_setContent (Bytes.size_overwrite _ _)

theorem widenActive (h : st.widenActive = .ok st') : st.Lasting st' := by
  unfold Stream.widenActive at h
  split at h
  next =>
    split at h
    next b hwiden =>
      cases h
      exact of_setContent (Bytes.size_of_widen hwiden)
    next => cases h
  next =>
    cases h
    exact .refl st

end Stream.Lasting

/-! ## 3. What lasts until the closing -/

namespace Playback

variable {τ : Type} {p q : Playback τ} {st st' : Stream} {es : List Event}

/-- After these events the stream is still open, and the buffers that were handed out in them are
its own and as long as the producer's share. -/
structure Endures (st : Stream) (es : List Event) (q : Playback τ) : Prop where
  lasting : ∃ st', q.session.stream = some st' ∧ st.Lasting st'
  served : ∀ k c stalled bytes, .answered k c stalled (.buffer bytes) ∈ es →
    k = st.number ∧ bytes.size = st.producerBytes

namespace Endures

theorem isSome (h : Endures st es q) : q.session.stream.isSome = true := by
  obtain ⟨st', hst', -⟩ := h.lasting
  rw [hst', Option.isSome_some]

theorem append {es' : List Event} (h : Endures st es p) (hst : p.session.stream = some st')
    (h' : Endures st' es' q) : Endures st (es ++ es') q := by
  obtain ⟨u, hu, hlasting⟩ := h.lasting
  rw [hst] at hu
  cases hu
  constructor
  case lasting =>
    obtain ⟨v, hv, hlasting'⟩ := h'.lasting
    exact ⟨v, hv, hlasting.trans hlasting'⟩
  case served =>
    intro k c stalled bytes hmem
    rcases List.mem_append.mp hmem with hold | hnew
    · exact h.served k c stalled bytes hold
    · have hserved := h'.served k c stalled bytes hnew
      rwa [hlasting.number, hlasting.producerBytes] at hserved

-- An event that hands no buffer out.
theorem of_event (hst : q.session.stream = some st') (hlasting : st.Lasting st') {e : Event}
    (he : ∀ k c stalled bytes, e ≠ .answered k c stalled (.buffer bytes)) : Endures st [e] q where
  lasting := ⟨st', hst, hlasting⟩
  served k c stalled bytes hmem := absurd (List.mem_singleton.mp hmem).symm (he k c stalled bytes)

theorem of_nothing (hst : q.session.stream = some st') (hlasting : st.Lasting st') :
    Endures st [] q where
  lasting := ⟨st', hst, hlasting⟩
  served k c stalled bytes hmem := by cases hmem

theorem setFeed (hst : p.session.stream = some st) {k : Nat} {f : Feed}
    (hfeed : p.feed? k = some f) {f' : Feed} (hsame : f.SameBytes f')
    (hdouble : f'.handshake.double = f.handshake.double) :
    ∃ st', (p.setFeed k f').session.stream = some st' ∧ st.Lasting st' := by
  rw [stream_setFeed, hst, Option.map_some]
  refine ⟨_, rfl, ?_⟩
  split
  next hk =>
    subst hk
    rw [feed?_of_open hst] at hfeed
    cases hfeed
    exact .of_sameBytes rfl rfl hsame hdouble
  next => exact .refl st

theorem device (hst : p.session.stream = some st) (k : Nat) (c : ConsumerStep) :
    Endures st [.device k c (p.consume k c).1] (p.consume k c).2 := by
  suffices h : ∃ st', (p.consume k c).2.session.stream = some st' ∧ st.Lasting st' by
    obtain ⟨st', hst', hlasting⟩ := h
    exact .of_event hst' hlasting nofun
  have hend := p.consumption k c
  generalize p.consume k c = r at hend
  cases hend with
  | nothing | peeked | faulted => exact ⟨st, hst, .refl st⟩
  | pulled n f f' hfeed hdrop =>
    have hdouble := ((f.touched_pull n).trans (Feed.touched_drop hdrop)).double
    exact setFeed hst hfeed ((f.sameBytes_pull n).trans (Feed.sameBytes_drop hdrop)) hdouble
  | held n name f hname hfeed =>
    exact setFeed hst hfeed (f.sameBytes_pull n) (f.touched_pull n).double
  | dropped name l f f' hname hfeed hdrop =>
    exact setFeed hst hfeed (Feed.sameBytes_drop hdrop) (Feed.touched_drop hdrop).double

theorem stray (hst : p.session.stream = some st) (k : Nat) (s : Slot) :
    Endures st [] (p.stray k s) := by
  unfold Playback.stray
  split
  next => exact .of_nothing hst (.refl st)
  next f hfeed =>
    have hsame : f.SameBytes (f.setHandshake (f.handshake.giveBack s)) := ⟨rfl, rfl, rfl, rfl⟩
    obtain ⟨st', hst', hlasting⟩ := setFeed hst hfeed hsame rfl
    exact .of_nothing hst' hlasting

theorem abandon (hst : p.session.stream = some st) : Endures st [] p.abandon := by
  unfold Playback.abandon
  split <;> exact .of_nothing hst (.refl st)

theorem proceed (hst : p.session.stream = some st) (stalled : Bool) :
    Endures st (p.proceed stalled).1 (p.proceed stalled).2 := by
  unfold Playback.proceed
  split
  next u hwait hu =>
    rw [hst] at hu
    cases hu
    split
    next => exact .of_nothing hst (.refl st)
    next =>
      split
      next => exact .of_nothing rfl (.countStall st stalled)
      next => exact .of_event rfl (.countStall st stalled) nofun
      next => exact .of_event rfl (.countStall st stalled) nofun
  next => exact .of_nothing hst (.refl st)

variable [Transport τ]

theorem refuse (hst : p.session.stream = some st) : Endures st p.refuse.1 p.refuse.2 := by
  unfold Playback.refuse
  split
  next stalled u hlaunch hu =>
    rw [hst] at hu
    cases hu
    unfold Session.startFirst
    rcases Transport.start p.session.transport st.handle st.format.frameRate
      st.format.layout.isStereo with ⟨e | u, t⟩
    · have hcleared := Stream.Lasting.cleared st
      exact .of_event rfl hcleared nofun
    · exact .of_nothing hst (.refl st)
  next => exact .of_nothing hst (.refl st)

theorem finished {c : Call} {stalled : Bool} {a : Answer} {s : Session τ}
    (h : p.session.Finishing st stalled c (.ok (some (a, s)))) :
    Endures st [.answered st.number c stalled a]
      { p with session := s, producer := .free, lent := p.lentAfter st c } := by
  cases h with
  | borrow hfillable hsize =>
    refine ⟨⟨_, rfl, .borrowed st stalled⟩, fun k c stalled bytes hmem => ?_⟩
    cases List.mem_singleton.mp hmem
    exact ⟨rfl, (Bytes.size_first _ _).trans (Nat.min_eq_left hsize)⟩
  | commit =>
    have hlasting := Stream.Lasting.handedOver st stalled
    exact .of_event rfl hlasting nofun
  | start =>
    have hlasting := (Stream.Lasting.handedOver st stalled).trans (.inPhase _ .playing)
    exact .of_event rfl hlasting nofun
  | refuse =>
    have hlasting : st.Lasting { st.handedOver stalled with
        feed := st.feed.setHandshake st.feed.handshake.cleared } :=
      .of_sameBytes (st.number_handedOver stalled) (st.widens_handedOver stalled)
        ⟨rfl, rfl, rfl, rfl⟩ rfl
    exact .of_event rfl hlasting nofun
  | drain =>
    have hlasting := Stream.Lasting.countStall st stalled
    exact .of_event rfl hlasting nofun

theorem transition (hst : p.session.stream = some st) (h : p.Transition es q)
    (hes : .closed ∉ es) : Endures st es q := by
  cases h with
  | idle | entered | configured => exact .of_nothing hst (.refl st)
  | fault | skipped | paused | resumed => exact .of_event hst (.refl st) nofun
  | notRestarted =>
    refine of_event ?_ (.refl st) nofun
    exact hst
  | notOpened _ hclosed | opened _ hclosed | closed _ hclosed =>
    rw [hst] at hclosed
    cases hclosed
  | closing => exact absurd (List.mem_singleton.mpr rfl) hes
  | committing _ u u' hu _ _ hwiden =>
    rw [hst] at hu
    cases hu
    exact .of_nothing rfl (.widenActive hwiden)
  | wrote _ edits u slot hu =>
    rw [hst] at hu
    cases hu
    exact .of_event rfl (.write st edits) nofun
  | stopped _ u hu =>
    rw [hst] at hu
    cases hu
    exact .of_event rfl (.inPhase st .paused) nofun
  | restarted _ u hu =>
    rw [hst] at hu
    cases hu
    exact .of_event rfl (.inPhase st .playing) nofun
  | finished c _ u hu stalled a s hend =>
    rw [hst] at hu
    cases hu
    exact finished hend
  | handedOver _ u hu _ _ _ stalled =>
    rw [hst] at hu
    cases hu
    exact .of_event rfl (.handedOver st stalled) nofun
  | launched _ _ u hu =>
    rw [hst] at hu
    cases hu
    exact .of_event rfl (.inPhase st .playing) nofun

theorem move (hst : p.session.stream = some st) (m : Move) (hes : .closed ∉ (p.move m).1) :
    Endures st (p.move m).1 (p.move m).2 := by
  cases m with
  | act a =>
    rcases p.step_cases a with ⟨k, c, -, hstep⟩ | htrans
    · show Endures st (p.step a).1 (p.step a).2
      rw [hstep]
      exact device hst k c
    · exact transition hst htrans hes
  | refuse => exact refuse hst
  | stray k s => exact stray hst k s
  | abandon => exact abandon hst
  | proceed stalled => exact proceed hst stalled

/-- Until it is closed a stream keeps its measures, whatever anybody does. -/
theorem play (hst : p.session.stream = some st) (ms : List Move) (hes : .closed ∉ (p.play ms).1) :
    Endures st (p.play ms).1 (p.play ms).2 := by
  induction ms generalizing p st with
  | nil => exact .of_nothing hst (.refl st)
  | cons m rest ih =>
    have hmove := move hst m fun hmem => hes (List.mem_append_left _ hmem)
    obtain ⟨st', hst', -⟩ := hmove.lasting
    exact hmove.append hst' (ih hst' fun hmem => hes (List.mem_append_right _ hmem))

end Endures

/-! ## 4. From an opening on -/

variable [Transport τ]

-- What a free producer leaves behind that opens a closed session.
theorem step_openStream (hfree : p.producer = .free) (hclosed : p.session.stream = none)
    (mem : Allocator) (requested : Format) :
    (∃ e s, p.session.Opening mem requested (.error e, s) ∧
      p.step (.command (.openStream mem requested)) =
        ([.notOpened e], { p with session := s })) ∨
    ∃ f s, p.session.Opening mem requested (.ok f, s) ∧
      p.step (.command (.openStream mem requested)) =
        ([.opened p.session.opens f (s.stream.any (·.widens))], { p with session := s }) := by
  obtain ⟨⟨r, s⟩, hr, hend⟩ := Session.openStream_of_closed hclosed mem requested
  simp only [step, hfree, command, openStream, hr]
  cases r with
  | error e => exact .inl ⟨e, s, hend, rfl⟩
  | ok f => exact .inr ⟨f, s, hend, rfl⟩

-- Only an opening is noted as one.
theorem opening_of_opened {mem : Allocator} {requested f : Format} {k : Nat} {w : Bool}
    (hopen : (p.step (.command (.openStream mem requested))).1 = [.opened k f w]) :
    ∃ s, p.session.Opening mem requested (.ok f, s) ∧
      (p.step (.command (.openStream mem requested))).2 = { p with session := s } ∧
      k = p.session.opens ∧ w = s.stream.any (·.widens) := by
  have hfree : p.producer = .free := by
    cases hproducer : p.producer with
    | free => rfl
    | waiting | launching =>
      simp only [step, hproducer] at hopen
      cases hopen
  have hclosed : p.session.stream = none := by
    cases hst : p.session.stream with
    | none => rfl
    | some st =>
      simp only [step, hfree, command, openStream, Session.openStream_of_open hst] at hopen
      cases hopen
  rcases step_openStream hfree hclosed mem requested with ⟨e, s, -, hstep⟩ | ⟨g, s, hend, hstep⟩
  · rw [hstep] at hopen
    cases hopen
  · rw [hstep] at hopen ⊢
    cases hopen
    exact ⟨s, hend, rfl, rfl, rfl⟩

omit [Transport τ] in
theorem sizes_zeroed (double : Bool) (bytes : Nat) :
    (Buffers.zeroed double bytes).sizes = .replicate (if double then 3 else 2) bytes := by
  cases double <;>
    simp [Buffers.sizes, Buffers.zeroed, Handshake.initial, Handshake.members, PerSlot.get,
      List.replicate]

/-- From an opening that succeeds until the stream is closed, whatever is asked for, whatever the
transport is and whatever anybody does in between.  Let `b` be the bytes of the configured number of
frames in the format that is played, and `g` those of as many frames in the layout that was asked
for:

* the transport has been asked for a stream of buffers of `b` bytes, and for no other;
* every slot in use and silence have `b` bytes;
* the producer's share is `g` bytes, and every buffer that is handed out is one of this stream and
  has `g` bytes;
* mono is duplicated exactly if it was asked for and stereo is played.  Then the encoding is linear,
  `b` is twice `g` and a multiple of two samples, and the duplication of what the producer writes is
  the whole buffer;
* otherwise the layout is the one that was asked for, and `b` is `g`. -/
theorem share_until_closing {p : Playback (Logged τ)} {mem : Allocator} {requested f : Format}
    {k : Nat} {w : Bool} (ms : List Move)
    (hopen : (p.step (.command (.openStream mem requested))).1 = [.opened k f w])
    (hclosed : .closed ∉ ((p.step (.command (.openStream mem requested))).2.play ms).1) :
    let c := p.session.settings
    let q := (p.step (.command (.openStream mem requested))).2
    let es := (q.play ms).1
    let s := (q.play ms).2.session
    ∃ b g, (c.override requested).Share f c.frameCount.toNat b g w ∧
      (∃ h, q.session.transport.log = p.session.transport.log ++
        [.create b (.ok h), .register h ⟨k, f⟩ (.ok ()), .setGain h c.gain]) ∧
      (∃ st, s.stream = some st ∧ st.number = k ∧ st.format = f ∧ st.widens = w ∧
        st.feed.sizes = .replicate (if c.doubleBuffered then 3 else 2) b) ∧
      s.producerBytes? = some g ∧
      ∀ j x stalled bytes, .answered j x stalled (.buffer bytes) ∈ es → j = k ∧ bytes.size = g := by
  intro c q es s
  obtain ⟨u, hend, hq, rfl, rfl⟩ := opening_of_opened hopen
  cases hend with
  | installed f b h t t' threshold hnegotiate hallocate hcreate hregister hthreshold =>
    obtain ⟨bytes, hbytes, -, rfl⟩ := Session.allocateFor_eq_ok hallocate
    have hshare := Format.share_of_negotiate hnegotiate hbytes
    have hsize : (Buffers.zeroed c.doubleBuffered bytes).bufferBytes = bytes :=
      Bytes.size_zeros bytes
    have hfirst := congrArg (·.session.stream) hq
    obtain ⟨⟨st, hst, hlasting⟩, hserved⟩ := Endures.play hfirst ms hclosed
    -- the new stream's share is that of the format
    have hpart : st.producerBytes =
        if Session.duplicates (c.override requested) f then bytes / 2 else bytes := by
      rw [hlasting.producerBytes]
      exact Stream.producerBytes_of_size hsize
    refine ⟨_, _, hshare, ⟨h, ?_⟩,
      ⟨st, hst, hlasting.number, hlasting.format, hlasting.widens, ?_⟩,
      ?_, fun j x stalled b hmem => ?_⟩
    · show (p.step (.command (.openStream mem requested))).2.session.transport.log = _
      rw [hq]
      show (Transport.setGain t' h c.gain).log = _
      rw [Logged.log_setGain, Logged.log_register hregister, Logged.log_create hcreate, hsize]
      simp
    · rw [hlasting.sizes]
      exact sizes_zeroed c.doubleBuffered bytes
    · show Option.map _ s.stream = _
      rw [hst, Option.map_some, hpart]
    · obtain ⟨hj, hb⟩ := hserved j x stalled b hmem
      rw [← hlasting.producerBytes, hpart] at hb
      exact ⟨hj, hb⟩

/-- Mono on a device that plays stereo only, over a borrow, a write, a commit and a pull: three
frames are six bytes for the producer, in buffers of twelve. -/
theorem share_of_duplicated_mono :
    let device : Hardware.Manual := ⟨{ pcm16 := some ⟨.stereo, .any⟩ }, 0, true⟩
    let hardware := Logged.new (Hardware.new (.manual device) .none)
    let p := new hardware { Settings.standard with frameCount := 3 }
    let opening : Action := .command (.openStream .machine ⟨.pcm16, .mono, 8000⟩)
    let ms : List Move := [.act (.command (.enter .borrow)), .act (.finish false),
      .act (.command (.write [.ramp 0])), .act (.command (.enter .commit)), .act (.finish false),
      .act (.device 0 (.pull 12))]
    let q := (p.step opening).2
    (p.step opening).1 = [.opened 0 ⟨.pcm16, .stereo, 8000⟩ true] ∧ .closed ∉ (q.play ms).1 ∧
      .answered 0 .borrow false (.buffer (.zeros 6)) ∈ (q.play ms).1 ∧
      (q.play ms).2.session.producerBytes? = some 6 ∧
      ∃ st, (q.play ms).2.session.stream = some st ∧ st.feed.sizes = [12, 12, 12] := by
  intro device hardware p opening ms q
  have hopen : (p.step opening).1 = [.opened 0 ⟨.pcm16, .stereo, 8000⟩ true] := by decide +kernel
  have hclosed : .closed ∉ (q.play ms).1 := by decide +kernel
  have hborrow : .answered 0 .borrow false (.buffer (.zeros 6)) ∈ (q.play ms).1 := by decide +kernel
  obtain ⟨b, g, hshare, -, ⟨st, hst, -, -, -, hsizes⟩, hbytes, hserved⟩ :=
    share_until_closing ms hopen hclosed
  have hwhole : Format.byteSize? ⟨.pcm16, .stereo, 8000⟩ 3 = some 12 := by decide +kernel
  obtain rfl : 12 = b := Option.some.inj (hwhole.symm.trans hshare.whole)
  obtain rfl : 6 = g := (hserved 0 .borrow false _ hborrow).2
  exact ⟨hopen, hclosed, hborrow, hbytes, st, hst, hsizes⟩

end Playback

end Playout

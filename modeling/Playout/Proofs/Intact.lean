import Playout.Proofs.Occupancy

/-!
# What calls rest on

The buffers of the open stream have their size, and every slot that is being read has a reader among
the live pulls.  Like the slots of `Settled` this survives whatever anybody does.
-/

namespace Playout

/-! ## 1. Buffers -/

/-- The buffers of a stream have their size, which is not zero, and hold whole pairs of samples if
mono is duplicated. -/
structure Stream.Sturdy (st : Stream) : Prop where
  room : st.feed.bufferBytes ≠ 0
  sized : ∀ s ∈ st.feed.handshake.members, (st.feed.content s).size = st.feed.bufferBytes
  pairs : st.widens = true → st.format.encoding.isLinear = true ∧
    ∃ frames, st.feed.bufferBytes = frames * (2 * (st.format.encoding.bits / 8))

namespace Stream.Sturdy

variable {st st' : Stream}

theorem of_same (h : st.Sturdy) (hsame : st.feed.SameBytes st'.feed)
    (hdouble : st'.feed.handshake.double = st.feed.handshake.double)
    (hwidens : st'.widens = st.widens) : st'.Sturdy where
  room := by
    rw [hsame.bufferBytes]
    exact h.room
  sized s hs := by
    rw [Handshake.members, hdouble, ← Handshake.members] at hs
    rw [hsame.bufferBytes, hsame.content]
    exact h.sized s hs
  pairs hw := by
    rw [Stream.format, hsame.format, hsame.bufferBytes]
    exact h.pairs (hwidens ▸ hw)

-- What is written into a slot is as long as what was there.
theorem of_contents (h : st.Sturdy) {f : Feed} (hsilence : f.silence = st.feed.silence)
    (hformat : f.format = st.feed.format) (hhandshake : f.handshake = st.feed.handshake)
    (hsize : ∀ s ∈ st.feed.handshake.members, (f.content s).size = (st.feed.content s).size) :
    Sturdy { st with feed := f } where
  room := by
    show f.silence.size ≠ 0
    rw [hsilence]
    exact h.room
  sized s hs := by
    replace hs : s ∈ f.handshake.members := hs
    rw [hhandshake] at hs
    show (f.content s).size = f.silence.size
    rw [hsilence, hsize s hs]
    exact h.sized s hs
  pairs hw := by
    show f.format.encoding.isLinear = true ∧ ∃ frames, f.silence.size = _
    rw [Stream.format, hformat, hsilence]
    exact h.pairs hw

theorem write (h : st.Sturdy) (edits : List Edit) : (st.write edits).Sturdy :=
  h.of_contents rfl rfl rfl fun s _ => Feed.size_content_edit _ _ s _ edits

theorem widenActive_eq (h : st.Sturdy)
    (hactive : st.feed.handshake.active ∈ st.feed.handshake.members) :
    st.widenActive =
      .ok { st with feed := st.feed.setContent st.feed.handshake.active st.outgoing } := by
  by_cases hw : st.widens = true
  · obtain ⟨hlinear, frames, hbytes⟩ := h.pairs hw
    exact Stream.widenActive_eq frames fun _ => ⟨hlinear, (h.sized _ hactive).trans hbytes⟩
  · exact Stream.widenActive_eq 0 fun hyes => absurd hyes hw

theorem size_outgoing (h : st.Sturdy)
    (hactive : st.feed.handshake.active ∈ st.feed.handshake.members) :
    st.outgoing.size = (st.feed.content st.feed.handshake.active).size := by
  rw [outgoing]
  by_cases hw : st.widens = true
  · -- both halves of a pair come from one sample
    obtain ⟨-, frames, hbytes⟩ := h.pairs hw
    have hsize := h.sized _ hactive
    have heven : frames * (2 * (st.format.encoding.bits / 8)) =
        2 * (frames * (st.format.encoding.bits / 8)) := Nat.mul_left_comm _ _ _
    rw [if_pos hw, Bytes.size_duplicate, Bytes.size_first]
    omega
  · rw [if_neg hw]

theorem widen (h : st.Sturdy) (hactive : st.feed.handshake.active ∈ st.feed.handshake.members) :
    ∃ st', st.widenActive = .ok st' ∧ st'.Sturdy ∧ st'.feed.handshake = st.feed.handshake := by
  refine ⟨_, h.widenActive_eq hactive, h.of_contents rfl rfl rfl fun s _ => ?_, rfl⟩
  rw [Feed.content_setContent]
  split
  next heq => rw [heq, h.size_outgoing hactive]
  next => rfl

theorem fresh {requested f : Format} {table : Capabilities} {frames bytes : Nat}
    (hnegotiate : requested.negotiate table = .ok f) (hbytes : f.byteSize? frames = some bytes)
    (hpos : bytes ≠ 0) (number : Nat) (handle : Handle) (double : Bool) (fallback : Fallback)
    (threshold : Duration) (phase : Phase) :
    Sturdy ⟨number, handle, .ofBuffers (.zeroed double bytes) f fallback,
      Session.duplicates requested f, threshold, 0, phase⟩ where
  room := by
    show (Bytes.zeros bytes).size ≠ 0
    rwa [Bytes.size_zeros]
  sized s hs := by
    cases s with
    | a => rfl
    | b =>
      have hd : double = true := (Handshake.mem_members.mp hs).resolve_left nofun
      subst hd
      rfl
  pairs hw := by
    obtain ⟨hlinear, hsize⟩ := Session.whole_pairs_of_duplicates hnegotiate hbytes hw
    exact ⟨hlinear, frames, (Bytes.size_zeros bytes).trans hsize⟩

end Stream.Sturdy

/-! ## 2. Readers -/

namespace Handshake

variable {h h' : Handshake}

/-- No slot is being read that was not before. -/
def NoNewReads (h h' : Handshake) : Prop := ∀ s, h'.state s = .consumed → h.state s = .consumed

theorem NoNewReads.refl (h : Handshake) : h.NoNewReads h := fun _ => id

theorem noNewReads_setFilling (h : Handshake) (s : Slot) : h.NoNewReads (h.setState s .filling) := by
  intro t ht
  rw [state_setState] at ht
  split at ht
  next => cases ht
  next => exact ht

theorem noNewReads_handed (h : Handshake) : h.NoNewReads h.handed := by
  intro t ht
  rw [state_handed] at ht
  split at ht
  next => cases ht
  next => exact ht

theorem noNewReads_giveBack (h : Handshake) (s : Slot) : h.NoNewReads (h.giveBack s) := fun _ =>
  state_of_state_giveBack (by decide)

theorem noNewReads_initial (h : Handshake) (double : Bool) : h.NoNewReads (.initial double) := by
  intro t ht
  rw [state_initial] at ht
  cases ht

end Handshake

namespace Feed

variable {f f' : Feed} {s : Slot}

-- A pull reads what it claims.
theorem consumed_pull {n : Nat} (h : (f.pull n).2.handshake.state s = .consumed) :
    (f.pull n).1.claimed = some s ∨ f.handshake.state s = .consumed := by
  have hend := f.pulled n
  generalize f.pull n = r at hend h
  have hclaimed : ∀ t, (f.handshake.claimed t).state s = .consumed →
      some t = some s ∨ f.handshake.state s = .consumed := by
    intro t ht
    rw [Handshake.state_claimed] at ht
    split at ht
    next heq => exact .inl (congrArg some heq.symm)
    next => exact .inr ht
  cases hend with
  | nothing | silent => exact .inr h
  | delivered t => exact hclaimed t h
  | replayed => exact hclaimed _ h

-- What is dropped is not read any more.
theorem consumed_drop {x : Pull} (hdrop : f.drop x = .ok f')
    (h : f'.handshake.state s = .consumed) :
    x.claimed ≠ some s ∧ f.handshake.state s = .consumed := by
  obtain ⟨hnone, rfl⟩ | ⟨t, hclaimed, -, rfl⟩ := drop_eq_ok hdrop
  · exact ⟨by simp [hnone], h⟩
  · rw [handshake_setHandshake, Handshake.state_giveBack] at h
    split at h
    next => cases h
    next hne => exact ⟨fun heq => hne (Option.some.inj (heq.symm.trans hclaimed)), h⟩

-- A check fails only where the slot is not being read.
theorem not_consumed_of_drop {x : Pull} {d : Defect} (hdrop : f.drop x = .error d)
    (hclaimed : x.claimed = some s) : f.handshake.state s ≠ .consumed := by
  intro hs
  simp [drop, hclaimed, hs] at hdrop

end Feed

namespace Playback

variable {τ : Type} {p q : Playback τ} {st st' : Stream}

theorem setFeed_self {k : Nat} {f : Feed} (hfeed : p.feed? k = some f) : p.setFeed k f = p := by
  have hkeep : p.kept k = some f → p.keep k f = p := by
    intro hkept
    have hsame : (fun j => if j = k then some f else p.kept j) = p.kept := by
      funext j
      split
      next hj => rw [hj, hkept]
      next => rfl
    rw [keep, hsame]
  unfold setFeed
  split
  next st hst =>
    split
    next hk =>
      subst hk
      rw [feed?_of_open hst] at hfeed
      cases hfeed
      rw [Session.setStream, ← hst]
    next hk => exact hkeep ((feed?_of_ne hst (Ne.symm hk)).symm.trans hfeed)
  next hst => exact hkeep ((feed?_of_closed hst k).symm.trans hfeed)

/-- Every slot that is being read has a reader, and the open stream has its buffers. -/
structure Intact (p : Playback τ) : Prop extends Housed p where
  readers : ∀ k f, p.feed? k = some f → ∀ s, f.handshake.state s = .consumed →
    ∃ l ∈ p.live, l.feed = k ∧ l.pull.claimed = some s
  sturdy : ∀ st, p.session.stream = some st → st.Sturdy

namespace Intact

-- Of several live pulls of one name there is one.
theorem name_unique (h : Intact p) {l l' : LivePull} (hl : l ∈ p.live) (hl' : l' ∈ p.live)
    (hname : l'.name = l.name) : l' = l := by
  have hfound := LivePulls.named?_of_mem h.names hl
  have hfound' := LivePulls.named?_of_mem h.names hl'
  rw [hname, hfound] at hfound'
  exact (Option.some.inj hfound').symm

theorem of_feeds (h : Intact p) (hopens : q.session.opens = p.session.opens)
    (hlive : q.live = p.live) (hfeeds : ∀ k, q.feed? k = p.feed? k)
    (hsturdy : ∀ st, q.session.stream = some st → st.Sturdy) : Intact q where
  toHoused := h.toHoused.of_same hopens hlive fun k => by rw [hfeeds]
  readers k f hf := by
    rw [hfeeds] at hf
    rw [hlive]
    exact h.readers k f hf
  sturdy := hsturdy

theorem of_same (h : Intact p) (hstream : q.session.stream = p.session.stream)
    (hopens : q.session.opens = p.session.opens) (hkept : q.kept = p.kept)
    (hlive : q.live = p.live) : Intact q := by
  refine h.of_feeds hopens hlive (fun k => ?_) fun st hst => h.sturdy st (hstream ▸ hst)
  rw [feed?, hstream, hkept, feed?]

-- A call on the open stream concerns no other feed.
theorem of_stream (h : Intact p) (hst : p.session.stream = some st)
    (hst' : q.session.stream = some st') (hnumber : st'.number = st.number)
    (hopens : q.session.opens = p.session.opens) (hkept : q.kept = p.kept)
    (hlive : q.live = p.live) (hreads : st.feed.handshake.NoNewReads st'.feed.handshake)
    (hsturdy : st.Sturdy → st'.Sturdy) : Intact q := by
  have hself : q.feed? st.number = some st'.feed := hnumber ▸ feed?_of_open hst'
  have hrest : ∀ k, k ≠ st.number → q.feed? k = p.feed? k := by
    intro k hk
    rw [feed?_of_ne hst' (hnumber ▸ hk), feed?_of_ne hst hk, hkept]
  constructor
  case toHoused =>
    refine h.toHoused.of_same hopens hlive fun k => ?_
    by_cases hk : k = st.number
    · rw [hk, hself, feed?_of_open hst]
      rfl
    · rw [hrest k hk]
  case readers =>
    intro k f hf s hs
    rw [hlive]
    by_cases hk : k = st.number
    · subst hk
      rw [hself] at hf
      cases hf
      exact h.readers _ _ (feed?_of_open hst) s (hreads s hs)
    · rw [hrest k hk] at hf
      exact h.readers k f hf s hs
  case sturdy =>
    intro u hu
    rw [hst'] at hu
    cases hu
    exact hsturdy (h.sturdy st hst)

-- A call that moves the slots and leaves the bytes alone.
theorem of_handshake (h : Intact p) (hst : p.session.stream = some st)
    (hst' : q.session.stream = some st') (hnumber : st'.number = st.number)
    (hwidens : st'.widens = st.widens) (hopens : q.session.opens = p.session.opens)
    (hkept : q.kept = p.kept) (hlive : q.live = p.live) {x : Handshake}
    (hfeed : st'.feed = st.feed.setHandshake x) (hdouble : x.double = st.feed.handshake.double)
    (hreads : st.feed.handshake.NoNewReads x) : Intact q := by
  have hsame : st.feed.SameBytes st'.feed := by
    rw [hfeed]
    exact ⟨rfl, rfl, rfl, rfl⟩
  refine h.of_stream hst hst' hnumber hopens hkept hlive (hfeed ▸ hreads) fun hsturdy => ?_
  exact hsturdy.of_same hsame (hfeed ▸ hdouble) hwidens

-- A step of a device concerns one feed and the live pulls.
theorem of_feed (h : Intact p) {k : Nat} {f f' : Feed} {live : LivePulls}
    (hfeed : p.feed? k = some f) (hsame : f.SameBytes f')
    (hdouble : f'.handshake.double = f.handshake.double) (hnames : live.names.Nodup)
    (hhomes : ∀ l ∈ live, l.feed = k ∨ l ∈ p.live) (hother : ∀ l ∈ p.live, l.feed ≠ k → l ∈ live)
    (hreaders : ∀ s, f'.handshake.state s = .consumed →
      ∃ l ∈ live, l.feed = k ∧ l.pull.claimed = some s) :
    Intact { p.setFeed k f' with live := live } := by
  have hfeeds : ∀ j, Playback.feed? { p.setFeed k f' with live := live } j =
      if j = k then some f' else p.feed? j := fun j => p.feed?_setFeed k j f'
  constructor
  case toHoused => exact h.toHoused.of_feed hfeed hnames hhomes
  case readers =>
    intro j g hg s hs
    rw [hfeeds] at hg
    split at hg
    next hj =>
      cases hg
      exact hj ▸ hreaders s hs
    next hj =>
      obtain ⟨l, hl, hlj, hclaimed⟩ := h.readers j g hg s hs
      exact ⟨l, hother l hl (hlj ▸ hj), hlj, hclaimed⟩
  case sturdy =>
    intro u hu
    replace hu : (p.setFeed k f').session.stream = some u := hu
    rw [stream_setFeed, Option.map_eq_some_iff] at hu
    obtain ⟨st, hst, rfl⟩ := hu
    have hsturdy := h.sturdy st hst
    split
    next hk =>
      subst hk
      rw [feed?_of_open hst] at hfeed
      cases hfeed
      exact hsturdy.of_same hsame hdouble rfl
    next => exact hsturdy

-- A feed whose handshake anybody has moved, without reading more than before.
theorem of_moved (h : Intact p) {k : Nat} {f : Feed} (hfeed : p.feed? k = some f) {x : Handshake}
    (hdouble : x.double = f.handshake.double) (hreads : f.handshake.NoNewReads x) :
    Intact (p.setFeed k (f.setHandshake x)) := by
  rw [← p.setFeed_live]
  exact h.of_feed hfeed ⟨rfl, rfl, rfl, rfl⟩ hdouble h.names (fun l hl => .inr hl)
    (fun l hl _ => hl) fun s hs => h.readers k f hfeed s (hreads s hs)

-- Nothing is left of a pull that has been dropped.
theorem of_without (h : Intact p) {l : LivePull} (hl : l ∈ p.live) {f f' : Feed}
    (hfeed : p.feed? l.feed = some f) (hsame : f.SameBytes f')
    (hdouble : f'.handshake.double = f.handshake.double)
    (hreads : ∀ s, f'.handshake.state s = .consumed →
      l.pull.claimed ≠ some s ∧ f.handshake.state s = .consumed) :
    Intact { p.setFeed l.feed f' with live := p.live.without l.name } := by
  have hkeep : ∀ x ∈ p.live, x ≠ l → x ∈ p.live.without l.name := fun x hx hne =>
    LivePulls.mem_without hx fun hname => hne (h.name_unique hl hx hname)
  refine h.of_feed hfeed hsame hdouble (LivePulls.names_without h.names)
    (fun x hx => .inr (LivePulls.mem_of_mem_without hx))
    (fun x hx hne => hkeep x hx fun heq => hne (congrArg LivePull.feed heq)) fun s hs => ?_
  obtain ⟨hclaimed, hold⟩ := hreads s hs
  obtain ⟨x, hx, hxk, hxs⟩ := h.readers _ f hfeed s hold
  refine ⟨x, hkeep x hx fun heq => ?_, hxk, hxs⟩
  subst heq
  exact hclaimed hxs

theorem device (h : Intact p) (k : Nat) (c : ConsumerStep) : Intact (p.consume k c).2 := by
  have hend := p.consumption k c
  generalize p.consume k c = r at hend
  cases hend with
  | nothing | peeked => exact h
  | pulled n f f' hfeed hdrop =>
    rw [← p.setFeed_live]
    have htouched := (f.touched_pull n).trans (Feed.touched_drop hdrop)
    refine h.of_feed hfeed ((f.sameBytes_pull n).trans (Feed.sameBytes_drop hdrop))
      htouched.double h.names (fun l hl => .inr hl) (fun l hl _ => hl) fun s hs => ?_
    -- what the pull has claimed it has given back
    obtain ⟨hclaimed, hread⟩ := Feed.consumed_drop hdrop hs
    exact h.readers k f hfeed s ((Feed.consumed_pull hread).resolve_left hclaimed)
  | held n name f hname hfeed =>
    refine h.of_feed hfeed (f.sameBytes_pull n) (f.touched_pull n).double
      (List.nodup_cons.mpr ⟨LivePulls.named?_eq_none hname, h.names⟩) (fun l hl => ?_)
      (fun l hl _ => List.mem_cons_of_mem _ hl) fun s hs => ?_
    · rcases List.mem_cons.mp hl with rfl | hl
      · exact .inl rfl
      · exact .inr hl
    · rcases Feed.consumed_pull hs with hclaimed | hread
      · exact ⟨_, List.mem_cons_self, rfl, hclaimed⟩
      · obtain ⟨l, hl, hlk, hls⟩ := h.readers k f hfeed s hread
        exact ⟨l, List.mem_cons_of_mem _ hl, hlk, hls⟩
  | dropped name l f f' hname hfeed hdrop =>
    obtain ⟨hl, rfl⟩ := LivePulls.named?_eq_some hname
    exact h.of_without hl hfeed (Feed.sameBytes_drop hdrop) (Feed.touched_drop hdrop).double
      fun s => Feed.consumed_drop hdrop
  | faulted name l f d hname hfeed hdrop =>
    obtain ⟨hl, rfl⟩ := LivePulls.named?_eq_some hname
    have hq := h.of_without hl hfeed ⟨rfl, rfl, rfl, rfl⟩ rfl fun s hs =>
      ⟨fun hclaimed => Feed.not_consumed_of_drop hdrop hclaimed hs, hs⟩
    rwa [setFeed_self hfeed] at hq

-- A new stream has sound buffers, and nobody reads them.
theorem of_new (h : Intact p) (hclosed : p.session.stream = none)
    (hst : q.session.stream = some st) (hnumber : st.number = p.session.opens)
    (hopens : q.session.opens = p.session.opens + 1) (hkept : q.kept = p.kept)
    (hlive : q.live = p.live) (hunread : ∀ s, st.feed.handshake.state s ≠ .consumed)
    (hsturdy : st.Sturdy) : Intact q where
  toHoused := h.toHoused.of_new hclosed hst hnumber hopens hkept hlive
  readers k f hf s hs := by
    by_cases hk : k = st.number
    · rw [hk, feed?_of_open hst] at hf
      cases hf
      exact absurd hs (hunread s)
    · rw [feed?_of_ne hst hk, hkept, ← feed?_of_closed hclosed] at hf
      rw [hlive]
      exact h.readers k f hf s hs
  sturdy u hu := by
    rw [hst] at hu
    cases hu
    exact hsturdy

variable [Transport τ] {tr es : List Event}

theorem finished (h : Intact p) {c : Call} (hst : p.session.stream = some st) {stalled : Bool}
    {a : Answer} {s : Session τ} (hend : p.session.Finishing st stalled c (.ok (some (a, s)))) :
    Intact { p with session := s, producer := .free, lent := p.lentAfter st c } := by
  cases hend with
  | borrow hfillable hsize =>
    exact h.of_handshake hst rfl (st.number_borrowed stalled) (st.widens_borrowed stalled) rfl
      rfl rfl (st.feed_borrowed stalled) rfl (Handshake.noNewReads_setFilling _ _)
  | commit | start =>
    exact h.of_handshake hst rfl (st.number_handedOver stalled) (st.widens_handedOver stalled) rfl
      rfl rfl (st.feed_handedOver stalled) (Handshake.double_handed _) (Handshake.noNewReads_handed _)
  | refuse =>
    exact h.of_handshake hst rfl (st.number_handedOver stalled) (st.widens_handedOver stalled) rfl
      rfl rfl rfl rfl (Handshake.noNewReads_initial _ _)
  | drain =>
    exact h.of_handshake hst rfl (st.number_countStall stalled) (st.widens_countStall stalled) rfl
      rfl rfl (st.feed_countStall stalled) rfl (.refl _)

theorem transition (h : Intact p) (hs : Settled tr p) (ht : p.Transition es q) : Intact q := by
  cases ht with
  | idle | fault | skipped | entered | paused | resumed | notRestarted | closed | configured =>
    exact h.of_same rfl rfl rfl rfl
  | notOpened hfree hclosed mem requested e s hend =>
    cases hend <;> exact h.of_same rfl rfl rfl rfl
  | opened hfree hclosed mem requested f s hend =>
    cases hend with
    | installed f b handle t t' threshold hnegotiate hallocate _ _ _ =>
      obtain ⟨bytes, hbytes, hpos, rfl⟩ := Session.allocateFor_eq_ok hallocate
      refine h.of_new hclosed rfl rfl rfl rfl rfl (fun s hs => ?_)
        (.fresh hnegotiate hbytes hpos _ _ _ _ _ _)
      exact absurd ((Handshake.state_initial _ s).symm.trans hs) (by decide)
  | committing hfree st st' hst hphase hfilling hwiden =>
    obtain ⟨u, hu, hsturdy, -⟩ := (h.sturdy st hst).widen (hs.tidy st hst).active_mem
    rw [hu] at hwiden
    cases hwiden
    obtain ⟨b, rfl⟩ := Stream.exists_of_widenActive hu
    exact h.of_stream hst rfl rfl rfl rfl rfl (.refl _) fun _ => hsturdy
  | wrote hfree edits st slot hst hlent =>
    exact h.of_stream hst rfl rfl rfl rfl rfl (.refl _) fun hsturdy => hsturdy.write edits
  | stopped hfree st hst | restarted hfree st hst =>
    exact h.of_handshake hst rfl rfl rfl rfl rfl rfl rfl rfl (.refl _)
  | launched stalled hlaunch st hst =>
    exact h.of_handshake hst rfl rfl rfl rfl rfl rfl rfl rfl (.refl _)
  | closing hfree st hst =>
    refine h.of_feeds rfl rfl (feed?_of_closing hst rfl rfl) fun u hu => ?_
    cases hu
  | finished c hwait st hst stalled a s hend => exact h.finished hst hend
  | handedOver hwait st hst hphase hblocks hfilling stalled =>
    exact h.of_handshake hst rfl (st.number_handedOver stalled) (st.widens_handedOver stalled) rfl
      rfl rfl (st.feed_handedOver stalled) (Handshake.double_handed _) (Handshake.noNewReads_handed _)

omit [Transport τ] in
theorem stray (h : Intact p) (k : Nat) (s : Slot) : Intact (p.stray k s) := by
  unfold Playback.stray
  split
  next => exact h
  next f hfeed => exact h.of_moved hfeed rfl (Handshake.noNewReads_giveBack _ s)

omit [Transport τ] in
theorem proceed (h : Intact p) (stalled : Bool) : Intact (p.proceed stalled).2 := by
  unfold Playback.proceed
  split
  next st hwait hst =>
    have hcounted : Intact { p with
        session := p.session.setStream (st.countStall stalled), lent := none } :=
      h.of_handshake hst rfl (st.number_countStall stalled) (st.widens_countStall stalled) rfl rfl
        rfl (st.feed_countStall stalled) rfl (.refl _)
    split
    next => exact h
    next =>
      split
      all_goals exact hcounted.of_same rfl rfl rfl rfl
  next => exact h

theorem refuse (h : Intact p) : Intact p.refuse.2 := by
  unfold Playback.refuse
  split
  next stalled st hlaunch hst =>
    unfold Session.startFirst
    rcases Transport.start p.session.transport st.handle st.format.frameRate
      st.format.layout.isStereo with ⟨e | u, t⟩
    · exact h.of_handshake hst rfl rfl rfl rfl rfl rfl rfl rfl (Handshake.noNewReads_initial _ _)
    · exact h
  next => exact h

theorem move (h : Intact p) (hs : Settled tr p) (m : Move) : Intact (p.move m).2 := by
  cases m with
  | act a =>
    show Intact (p.step a).2
    rcases p.step_cases a with ⟨k, c, -, hstep⟩ | htrans
    · rw [hstep]
      exact h.device k c
    · exact h.transition hs htrans
  | refuse => exact h.refuse
  | stray k s => exact h.stray k s
  | abandon =>
    show Intact p.abandon
    unfold Playback.abandon
    split <;> exact h.of_same rfl rfl rfl rfl
  | proceed stalled => exact h.proceed stalled

theorem play (h : Intact p) (hs : Settled tr p) (ms : List Move) : Intact (p.play ms).2 := by
  induction ms generalizing tr p with
  | nil => exact h
  | cons m rest ih => exact ih (h.move hs m) (hs.move m)

end Intact

theorem intact_new (t : τ) (c : Settings) : Intact (new t c) where
  toHoused := (sound_new t c).toHoused
  readers k f hf := by cases hf
  sturdy st hst := by cases hst

theorem intact_run [Transport τ] (t : τ) (c : Settings) (as : List Action) :
    Intact ((new t c).run as).2 := by
  rw [← play_act]
  exact (intact_new t c).play (settled_new t c) _

end Playback

end Playout

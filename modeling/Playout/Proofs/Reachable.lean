import Playout.Proofs.Sound
import Playout.Proofs.Transition

/-!
# Every reachable playback is sound

One lemma for each thing that can happen, and the induction over a run.
-/

namespace Playout

namespace Playback

variable {τ : Type} {tr : List Event} {p : Playback τ}

namespace Sound

/-! ## 1. Devices -/

-- A slot that a live pull claims is being read.
theorem consumed (hs : Sound tr p) {l : LivePull} (hl : l ∈ p.live) {f : Feed}
    (hf : p.feed? l.feed = some f) {s : Slot}
    (hclaimed : l.pull.claimed = some s) : f.handshake.state s = .consumed := by
  have hpos := LivePulls.claims_pos hl hclaimed
  have hcustody : p.live.claims l.feed s = if f.handshake.state s = .consumed then 1 else 0 :=
    (hs.lines l.feed f hf).orderly.custody s
  split at hcustody
  next h => exact h
  next => omega

-- A slot is being read only while a live pull claims it.
theorem reader (hs : Sound tr p) {k : Nat} {f : Feed} (hf : p.feed? k = some f) {s : Slot}
    (hconsumed : f.handshake.state s = .consumed) :
    ∃ l ∈ p.live, l.feed = k ∧ l.pull.claimed = some s := by
  have hcustody : p.live.claims k s = if f.handshake.state s = .consumed then 1 else 0 :=
    (hs.lines k f hf).orderly.custody s
  rw [if_pos hconsumed] at hcustody
  have hpos : 0 < p.live.claims k s := by omega
  obtain ⟨l, hl, hmatch⟩ := List.countP_pos_iff.mp hpos
  exact ⟨l, hl, of_decide_eq_true hmatch⟩

-- A device can always drop what it holds.
theorem drop_ok (hs : Sound tr p) {l : LivePull} (hl : l ∈ p.live) {f : Feed}
    (hfeed : p.feed? l.feed = some f) : ∃ f', f.drop l.pull = .ok f' :=
  Feed.drop_ok fun _ hclaimed => hs.consumed hl hfeed hclaimed

theorem device (hs : Sound tr p) (k : Nat) (c : ConsumerStep) :
    Sound (tr ++ [.device k c (p.consume k c).1]) (p.consume k c).2 := by
  have hstep := p.consumption k c
  generalize p.consume k c = r at hstep
  have hother : ∀ (e : ConsumerReply) j, j ≠ k →
      ledger j (tr ++ [.device k c e]) = ledger j tr := by
    intro e j hj
    exact ledger_of_ne rfl hj tr
  have hquiet : ∀ (e : ConsumerReply), Delivery.of? c e = none →
      ∀ j, ledger j (tr ++ [.device k c e]) = ledger j tr := by
    intro e he j
    rw [ledger_concat, Ledger.note, he]
    split <;> rfl
  have htaken : ∀ (e : ConsumerReply),
      ledger k (tr ++ [.device k c e]) = (ledger k tr).take (Delivery.of? c e) := by
    intro e
    rw [ledger_concat, Ledger.note, if_pos rfl]
  cases hstep with
  | nothing =>
    exact hs.of_same (hquiet _ (Delivery.of?_nothing c)) rfl rfl rfl rfl rfl rfl
  | pulled n f f' hfeed hdrop =>
    rw [← p.setFeed_live]
    refine hs.of_feed hfeed hs.names (fun l hl => .inr hl) (fun _ _ => rfl) (htaken _) (hother _) ?_
    -- the claim of the pull is the one that dropping takes back
    have hpull := (hs.lines k f hfeed).pull n
    exact hpull.drop (c := p.live.claims k) hdrop rfl
  | held n name f hname hfeed =>
    have hclaims := LivePulls.claims_cons_self ⟨name, k, (f.pull n).1⟩ p.live
    have hsame : Delivery.of? (.hold n name) ((f.pull n).2.view (f.pull n).1) =
        Delivery.of? (.pull n) ((f.pull n).2.view (f.pull n).1) := Delivery.of?_hold _ _ _
    refine hs.of_feed hfeed ?_ ?_ ?_ (htaken _) (hother _) ?_
    · exact List.nodup_cons.mpr ⟨LivePulls.named?_eq_none hname, hs.names⟩
    · intro l hl
      rcases List.mem_cons.mp hl with rfl | hl
      · exact .inl rfl
      · exact .inr hl
    · intro j hj
      exact LivePulls.claims_cons_of_ne hj p.live
    · rw [hclaims, hsame]
      exact (hs.lines k f hfeed).pull n
  | peeked name l f hname hfeed =>
    exact hs.of_same (hquiet _ (Delivery.of?_peek name _)) rfl rfl rfl rfl rfl rfl
  | dropped name l f f' hname hfeed hdrop =>
    -- the claims are those of the others and one more
    have hclaims := LivePulls.claims_without hs.names hname
    refine hs.of_feed (d := none) hfeed (LivePulls.names_without hs.names) ?_ ?_
      (hquiet _ (Delivery.of?_drop name _) _) ?_ ?_
    · intro x hx
      exact .inr (LivePulls.mem_of_mem_without hx)
    · intro j hj
      rw [hclaims, LivePulls.claims_cons_of_ne hj]
    · intro j _
      exact hquiet _ (Delivery.of?_drop name _) j
    · exact (hs.lines l.feed f hfeed).drop hdrop
        ((hclaims l.feed).trans (LivePulls.claims_cons_self l _))
  | faulted name l f d hname hfeed hdrop =>
    -- cannot happen: the slot of a live pull is being read
    obtain ⟨f', hok⟩ := hs.drop_ok (LivePulls.named?_eq_some hname).1 hfeed
    rw [hdrop] at hok
    cases hok

/-! ## 2. The open stream -/

theorem open_line (hs : Sound tr p) {st : Stream} (hst : p.session.stream = some st) :
    Line.Inv ⟨st.feed, p.live.claims st.number, ledger st.number tr,
      decide (p.producer = .waiting .commit), p.lent⟩ := by
  have hinv := hs.lines st.number st.feed (feed?_of_open hst)
  rwa [line_of_open _ hst] at hinv

-- The producer's part of a buffer, as the session and as the line see it.
theorem producerBytes_eq (hs : Sound tr p) {st : Stream} (hst : p.session.stream = some st)
    (sealed : Bool) : Line.producerBytes ⟨st.feed, p.live.claims st.number, ledger st.number tr,
      sealed, p.lent⟩ = st.producerBytes := by
  rw [Line.producerBytes, Stream.producerBytes, hs.widens st hst]

-- Entering a commit succeeds on a buffer that is being filled, and leaves its page there.
theorem widenActive_eq (hs : Sound tr p) {st : Stream} (hst : p.session.stream = some st) :
    st.widenActive = .ok { st with
      feed := st.feed.setContent st.feed.handshake.active
        (Line.widened ⟨st.feed, p.live.claims st.number, ledger st.number tr, false, p.lent⟩) } := by
  have hx := hs.open_line hst
  have hsize : (st.feed.content st.feed.handshake.active).size = st.feed.bufferBytes :=
    hx.sized.content_active hx.orderly
  have hwidens := hs.widens st hst
  cases hw : (ledger st.number tr).doubled with
  | none =>
    rw [hw] at hwidens
    rw [Stream.widenActive_eq 0 (by simp [hwidens]), Stream.outgoing, hwidens]
    simp [Line.widened, hw]
  | some width =>
    -- the buffer consists of whole pairs, so the loop leaves no byte out
    obtain ⟨hlinear, hwidth, frames, hbytes⟩ := hx.sized.doubled width hw
    replace hwidth : width = st.feed.format.encoding.bits / 8 := hwidth
    replace hbytes : st.feed.bufferBytes = frames * (2 * width) := hbytes
    rw [hw] at hwidens
    rw [Stream.widenActive_eq frames (fun _ => ⟨hlinear, by rw [hsize, hbytes, hwidth]⟩),
      Stream.outgoing, hwidens]
    simp only [Line.widened, hw, Option.isSome_some, if_true, hsize, hwidth, Stream.format]

/-! ## 3. Calls of a free producer -/

theorem entered (hs : Sound tr p) (hfree : p.producer = .free) {st : Stream}
    (hst : p.session.stream = some st) (hphase : st.phase ≠ .paused) {c : Call} (hc : c ≠ .commit) :
    Sound (tr ++ []) { p with producer := .waiting c } := by
  have hlaunch : p.producer.isLaunching = false := by rw [hfree]; rfl
  have hline := hs.open_line hst
  refine hs.of_stream hst hst rfl rfl rfl rfl (fun k _ => ledger_append_nil k tr)
    ?_ ?_ ?_ ?_ ?_ (fun _ => hphase)
  · rw [ledger_append_nil]
    simpa [hfree, hc] using hline
  · rw [ledger_append_nil]
    exact hs.balance_settled hlaunch _
  · rw [ledger_append_nil]
    exact hs.widens st hst
  · rw [ledger_append_nil]
    simpa [hfree, Producer.isLaunching] using hs.started st hst
  · intro h
    cases h

theorem committing (hs : Sound tr p) (hfree : p.producer = .free) {st st' : Stream}
    (hst : p.session.stream = some st) (hphase : st.phase ≠ .paused)
    (hfilling : st.feed.handshake.state st.feed.handshake.active = .filling)
    (hwiden : st.widenActive = .ok st') :
    Sound (tr ++ [])
      { p with session := p.session.setStream st', producer := .waiting .commit } := by
  have hlaunch : p.producer.isLaunching = false := by rw [hfree]; rfl
  rw [hs.widenActive_eq hst] at hwiden
  cases hwiden
  -- the buffer is sealed, and no event tells of it
  have hline := hs.open_line hst
  rw [hfree] at hline
  refine hs.of_stream hst rfl rfl rfl rfl rfl (fun k _ => ledger_append_nil k tr)
    ?_ ?_ ?_ ?_ ?_ (fun _ => hphase)
  · rw [ledger_append_nil]
    exact hline.step (.commit rfl hfilling)
  · rw [ledger_append_nil]
    exact hs.balance_settled hlaunch _
  · rw [ledger_append_nil]
    exact hs.widens st hst
  · rw [ledger_append_nil]
    simpa [hfree, Producer.isLaunching] using hs.started st hst
  · intro h
    cases h

theorem wrote (hs : Sound tr p) (hfree : p.producer = .free) {st : Stream}
    (hst : p.session.stream = some st) {slot : Slot} (hlent : p.lent = some slot)
    (edits : List Edit) :
    Sound (tr ++ [.wrote st.number edits])
      { p with session := p.session.setStream (st.write edits) } := by
  have hlaunch : p.producer.isLaunching = false := by rw [hfree]; rfl
  have hledger : ledger st.number (tr ++ [.wrote st.number edits]) =
      (ledger st.number tr).write edits := by
    rw [ledger_concat, Ledger.note, if_pos rfl]
  have hline := hs.open_line hst
  have hbytes := hs.producerBytes_eq hst false
  rw [hfree] at hline
  have hwritten : (p.session.setStream (st.write edits)).stream = some (st.write edits) := rfl
  refine hs.of_call hst hwritten hfree rfl rfl rfl rfl ?_ ?_ ?_ ?_ ?_
  · exact fun k hk => ledger_of_ne rfl hk tr
  · have hstep := hline.step (.write edits rfl (by simp [hlent]))
    rw [Line.write] at hstep
    rw [hledger, Stream.write, ← hbytes]
    exact hstep
  · rw [hledger]
    exact hs.balance_settled hlaunch _
  · rw [hledger]
    exact hs.widens st hst
  · rw [hledger]
    exact hs.handed_eq_nil_iff hlaunch hst

-- A change of phase on a stream that has been started.
theorem of_phase (hs : Sound tr p) (hfree : p.producer = .free) {st : Stream}
    (hst : p.session.stream = some st) (hopened : st.phase ≠ .opened) {phase : Phase}
    (hphase : phase ≠ .opened) (t : τ) {e : Event} (he : ∀ k l, Ledger.note k l e = l) :
    Sound (tr ++ [e])
      { p with
        session := { p.session with transport := t, stream := some { st with phase } } } := by
  have hledger : ∀ k, ledger k (tr ++ [e]) = ledger k tr := fun k =>
    (ledger_concat k tr e).trans (he k _)
  have hlaunch : p.producer.isLaunching = false := by rw [hfree]; rfl
  refine hs.of_call hst rfl hfree rfl rfl rfl rfl (fun k _ => hledger k) ?_ ?_ ?_ ?_
  · have hline := hs.open_line hst
    rw [hfree] at hline
    rw [hledger]
    exact hline
  · rw [hledger]
    exact hs.balance_settled hlaunch _
  · rw [hledger]
    exact hs.widens st hst
  · rw [hledger, hs.handed_eq_nil_iff hlaunch hst]
    exact iff_of_false hopened hphase

-- A closed stream leaves its line as it is, with nobody to write on it.
theorem closing (hs : Sound tr p) (hfree : p.producer = .free) {st : Stream}
    (hst : p.session.stream = some st) (t : τ) (last : Reading) :
    Sound (tr ++ [.closed])
      { p.keep st.number st.feed with
        session := { p.session with transport := t, stream := none, last := last }
        lent := none } := by
  have hlaunch : p.producer.isLaunching = false := by rw [hfree]; rfl
  generalize hq : ({ p.keep st.number st.feed with
    session := { p.session with transport := t, stream := none, last := last }
    lent := none } : Playback τ) = q
  have hclosed : q.session.stream = none := by subst hq; rfl
  have hopens : q.session.opens = p.session.opens := by subst hq; rfl
  have hlive : q.live = p.live := by subst hq; rfl
  have hproducer : q.producer = p.producer := by subst hq; rfl
  have hfeed : ∀ k, q.feed? k = p.feed? k := feed?_of_closing hst hclosed (by subst hq; rfl)
  have hledger : ∀ k, ledger k (tr ++ [Event.closed]) = ledger k tr := fun k =>
    ledger_concat k tr .closed
  constructor
  case toHoused => exact hs.toHoused.of_same hopens hlive fun k => by rw [hfeed]
  case lines =>
    intro k f hf
    rw [hfeed] at hf
    have hinv := hs.lines k f hf
    rw [line_of_not_holds (holds_of_closed hclosed k), hlive, hledger]
    by_cases hk : k = st.number
    · -- nobody can write on it any more
      subst hk
      rw [line_of_open _ hst, hfree] at hinv
      exact hinv.step (.close rfl)
    · rwa [line_of_not_holds ((holds_of_open hst k).trans (by simp [Ne.symm hk]))] at hinv
  case blank =>
    intro k hk
    rw [hopens] at hk
    rw [hledger]
    exact hs.blank k hk
  case balance =>
    intro k
    rw [hledger, holds_of_closed hclosed]
    exact hs.balance_settled hlaunch k
  case widens =>
    intro u hu
    rw [hclosed] at hu
    cases hu
  case started =>
    intro u hu
    rw [hclosed] at hu
    cases hu
  case launching =>
    intro h
    rw [hproducer, hlaunch] at h
    cases h
  case busy =>
    intro h
    exact absurd (hproducer.trans hfree) h
  case lent_open =>
    intro _
    subst hq
    rfl

-- The line of a stream that has been negotiated: where mono is duplicated, there are whole pairs.
theorem inv_fresh {requested f : Format} {table : Capabilities} {frames bytes : Nat}
    (hnegotiate : requested.negotiate table = .ok f) (hbytes : f.byteSize? frames = some bytes)
    (double : Bool) (fallback : Fallback) :
    (Line.fresh double bytes f fallback (if Session.duplicates requested f
      then some (f.encoding.bits / 8) else none)).Inv := by
  refine ⟨Line.orderly_fresh .., Line.sized_fresh _ _ _ _ _ ?_, Line.faithful_fresh ..⟩
  intro width hwidth
  cases hdup : Session.duplicates requested f with
  | false => simp [hdup] at hwidth
  | true =>
    rw [hdup] at hwidth
    cases hwidth
    obtain ⟨hlinear, hsize⟩ := Session.whole_pairs_of_duplicates hnegotiate hbytes hdup
    exact ⟨hlinear, rfl, _, hsize⟩

section

variable [Transport τ]

theorem installed (hs : Sound tr p) (hfree : p.producer = .free)
    (hclosed : p.session.stream = none) {mem : Allocator} {requested f : Format} {b : Buffers}
    (hnegotiate : (p.session.settings.override requested).negotiate
      (Transport.capabilities p.session.transport) = .ok f)
    (hallocate : p.session.allocateFor mem f = .ok b) (handle : Handle) (t : τ)
    (threshold : Duration) :
    Sound
      (tr ++ [.opened p.session.opens f
        (Session.duplicates (p.session.settings.override requested) f)])
      { p with
        session := Session.install { p.session with transport := t } handle
          (Feed.ofBuffers b f p.session.settings.fallback)
          (Session.duplicates (p.session.settings.override requested) f) threshold } := by
  obtain ⟨bytes, hbytes, -, rfl⟩ := Session.allocateFor_eq_ok hallocate
  have hline := inv_fresh hnegotiate hbytes p.session.settings.doubleBuffered
    p.session.settings.fallback
  refine hs.of_new hfree hclosed rfl rfl rfl rfl rfl rfl rfl rfl ?_ ?_ hline ?_
  · rw [ledger_concat, Ledger.note, if_pos rfl]
  · exact fun k hk => ledger_of_ne rfl hk tr
  · cases Session.duplicates (p.session.settings.override requested) f <;> rfl

end

/-! ## 4. Finishing -/

-- The line of a commit that has been entered.
theorem sealed_line (hs : Sound tr p) {st : Stream} (hst : p.session.stream = some st)
    (hwait : p.producer = .waiting .commit) :
    Line.Inv ⟨st.feed, p.live.claims st.number, ledger st.number tr, true, p.lent⟩ := by
  have hline := hs.open_line hst
  rwa [hwait, decide_eq_true rfl] at hline

-- A commit that is done: its page has been handed over, and the device plays or is about to.
theorem commit_done (hs : Sound tr p) {st st' : Stream} (hst : p.session.stream = some st)
    (hwait : p.producer = .waiting .commit) (hblocks : st.blocks .commit = false) {stalled : Bool}
    (t : τ) (hnumber : st'.number = st.number) (hwidens : st'.widens = st.widens)
    (hfeed : st'.feed = (st.handedOver stalled).feed) (hopened : st'.phase ≠ .opened) :
    Sound (tr ++ [.answered st.number .commit stalled .done])
      { p with
        session := { p.session with transport := t }.setStream st'
        producer := .free
        lent := none } := by
  have hlaunch : p.producer.isLaunching = false := by rw [hwait]; rfl
  have hledger : ledger st.number (tr ++ [.answered st.number .commit stalled .done]) =
      (ledger st.number tr).handOver.settle := by
    rw [ledger_concat, Ledger.note, if_pos rfl]
    rfl
  have hx := hs.sealed_line hst hwait
  refine hs.of_call hst rfl rfl hnumber rfl rfl rfl ?_ ?_ ?_ ?_ ?_
  · exact fun k hk => ledger_of_ne rfl hk tr
  · rw [hledger, hfeed, Stream.feed_handedOver]
    exact (hx.step (.handOver rfl hblocks)).step .settle
  · rw [hledger]
    have hbalance := hs.balance_settled hlaunch st.number
    -- one page more on one side, one commit more on the other
    show ((ledger st.number tr).handed ++ [_]).length = (ledger st.number tr).returned + 1
    rw [List.length_append, List.length_singleton, hbalance]
  · rw [hledger, hwidens]
    exact hs.widens st hst
  · rw [hledger]
    exact iff_of_false (List.append_ne_nil_of_right_ne_nil _ (by simp)) hopened

-- A first commit whose start is refused leaves a cleared handshake.
theorem commit_refused (hs : Sound tr p) {st : Stream} (hst : p.session.stream = some st)
    (hwait : p.producer = .waiting .commit) (hphase : st.phase = .opened) (stalled : Bool) (t : τ)
    (e : Refusal) :
    Sound (tr ++ [.answered st.number .commit stalled (.refused e)])
      { p with
        session := { p.session with transport := t }.setStream
          { st.handedOver stalled with
            feed := st.feed.setHandshake st.feed.handshake.cleared }
        producer := .free
        lent := none } := by
  have hlaunch : p.producer.isLaunching = false := by rw [hwait]; rfl
  have hledger : ledger st.number (tr ++ [.answered st.number .commit stalled (.refused e)]) =
      (ledger st.number tr).refuse := by
    rw [ledger_concat, Ledger.note, if_pos rfl]
    rfl
  have hempty := (hs.handed_eq_nil_iff hlaunch hst).mpr hphase
  have hx := hs.sealed_line hst hwait
  refine hs.of_call hst rfl rfl (Stream.number_handedOver st stalled) rfl rfl rfl ?_ ?_ ?_ ?_ ?_
  · exact fun k hk => ledger_of_ne rfl hk tr
  · rw [hledger]
    exact hx.step (.discard rfl hempty)
  · rw [hledger]
    exact hs.balance_settled hlaunch st.number
  · rw [hledger]
    exact (Stream.widens_handedOver st stalled).trans (hs.widens st hst)
  · rw [hledger]
    exact iff_of_true hempty ((Stream.phase_handedOver st stalled).trans hphase)

theorem borrowed (hs : Sound tr p) {st : Stream} (hst : p.session.stream = some st)
    (hwait : p.producer = .waiting .borrow)
    (hfillable : st.feed.handshake.state st.feed.handshake.active = .empty ∨
      st.feed.handshake.state st.feed.handshake.active = .filling) (stalled : Bool) :
    Sound
      (tr ++ [.answered st.number .borrow stalled
        (.buffer ((st.feed.content st.feed.handshake.active).first st.producerBytes))])
      { p with
        session := p.session.setStream (st.borrowed stalled)
        producer := .free
        lent := some st.feed.handshake.active } := by
  have hlaunch : p.producer.isLaunching = false := by rw [hwait]; rfl
  have hledger : ledger st.number (tr ++ [.answered st.number .borrow stalled
      (.buffer ((st.feed.content st.feed.handshake.active).first st.producerBytes))]) =
      (ledger st.number tr).borrow
        ((st.feed.content st.feed.handshake.active).first st.producerBytes) := by
    rw [ledger_concat, Ledger.note, if_pos rfl]
    rfl
  have hx := hs.open_line hst
  have hbytes := hs.producerBytes_eq hst false
  rw [hwait] at hx
  refine hs.of_call hst rfl rfl (Stream.number_borrowed st stalled) rfl rfl rfl ?_ ?_ ?_ ?_ ?_
  · exact fun k hk => ledger_of_ne rfl hk tr
  · have hstep := hx.step (.borrow rfl hfillable)
    rw [Line.borrow] at hstep
    rw [hledger, Stream.feed_borrowed, ← hbytes]
    exact hstep
  · rw [hledger]
    exact hs.balance_settled hlaunch st.number
  · rw [hledger]
    exact (Stream.widens_borrowed st stalled).trans (hs.widens st hst)
  · rw [hledger, Stream.phase_borrowed]
    exact hs.handed_eq_nil_iff hlaunch hst

theorem drained (hs : Sound tr p) {st : Stream} (hst : p.session.stream = some st)
    (hwait : p.producer = .waiting .drain) (stalled : Bool) :
    Sound (tr ++ [.answered st.number .drain stalled .done])
      { p with session := p.session.setStream (st.countStall stalled), producer := .free } := by
  have hlaunch : p.producer.isLaunching = false := by rw [hwait]; rfl
  have hledger : ∀ k, ledger k (tr ++ [.answered st.number .drain stalled .done]) =
      ledger k tr := by
    intro k
    rw [ledger_concat, Ledger.note]
    split <;> rfl
  have hx := hs.open_line hst
  rw [hwait] at hx
  refine hs.of_call hst rfl rfl (Stream.number_countStall st stalled) rfl rfl rfl
    (fun k _ => hledger k) ?_ ?_ ?_ ?_
  · rw [hledger, Stream.feed_countStall]
    exact hx
  · rw [hledger]
    exact hs.balance_settled hlaunch st.number
  · rw [hledger]
    exact (Stream.widens_countStall st stalled).trans (hs.widens st hst)
  · rw [hledger, Stream.phase_countStall]
    exact hs.handed_eq_nil_iff hlaunch hst

theorem handedOver (hs : Sound tr p) {st : Stream} (hst : p.session.stream = some st)
    (hwait : p.producer = .waiting .commit) (hphase : st.phase = .opened)
    (hblocks : st.blocks .commit = false) (stalled : Bool) :
    Sound (tr ++ [.handedOver st.number])
      { p with
        session := p.session.setStream (st.handedOver stalled)
        producer := .launching stalled
        lent := none } := by
  have hlaunch : p.producer.isLaunching = false := by rw [hwait]; rfl
  have hledger : ledger st.number (tr ++ [.handedOver st.number]) =
      (ledger st.number tr).handOver := by
    rw [ledger_concat, Ledger.note, if_pos rfl]
  have hx := hs.sealed_line hst hwait
  refine hs.of_stream hst rfl (Stream.number_handedOver st stalled) rfl rfl rfl ?_ ?_ ?_ ?_ ?_ ?_ ?_
  · exact fun k hk => ledger_of_ne rfl hk tr
  · rw [hledger, Stream.feed_handedOver]
    exact hx.step (.handOver rfl hblocks)
  · rw [hledger]
    have hbalance := hs.balance_settled hlaunch st.number
    -- the commit has not returned yet
    show ((ledger st.number tr).handed ++ [_]).length = (ledger st.number tr).returned + 1
    rw [List.length_append, List.length_singleton, hbalance]
  · rw [hledger]
    exact (Stream.widens_handedOver st stalled).trans (hs.widens st hst)
  · rw [hledger]
    constructor
    · intro h
      exact absurd h (List.append_ne_nil_of_right_ne_nil _ (by simp))
    · intro h
      cases h.2
  · intro _
    exact (Stream.phase_handedOver st stalled).trans hphase
  · intro _
    rw [Stream.phase_handedOver, hphase]
    decide

theorem launched (hs : Sound tr p) {st : Stream} (hst : p.session.stream = some st)
    {stalled : Bool} (hlaunch : p.producer = .launching stalled) (t : τ) :
    Sound (tr ++ [.launched st.number stalled])
      { p with
        session := { p.session with transport := t, stream := some { st with phase := .playing } }
        producer := .free } := by
  have hledger : ledger st.number (tr ++ [.launched st.number stalled]) =
      (ledger st.number tr).settle := by
    rw [ledger_concat, Ledger.note, if_pos rfl]
  have hx := hs.open_line hst
  rw [hlaunch] at hx
  have hplaying : Session.stream { p.session with
      transport := t, stream := some { st with phase := .playing } } =
        some { st with phase := .playing } := rfl
  refine hs.of_call hst hplaying rfl rfl rfl rfl rfl ?_ ?_ ?_ ?_ ?_
  · exact fun k hk => ledger_of_ne rfl hk tr
  · rw [hledger]
    exact hx.step .settle
  · rw [hledger]
    have hbalance := hs.balance st.number
    rw [hlaunch, holds_of_open hst, decide_eq_true rfl] at hbalance
    exact hbalance
  · rw [hledger]
    exact hs.widens st hst
  · rw [hledger]
    have hstarted := hs.started st hst
    rw [hlaunch] at hstarted
    refine iff_of_false ?_ ?_
    · intro h
      cases (hstarted.mp h).2
    · intro h
      cases h

variable [Transport τ]

/-! ## 5. Runs -/

theorem finished (hs : Sound tr p) {c : Call} (hwait : p.producer = .waiting c) {st : Stream}
    (hst : p.session.stream = some st) {stalled : Bool} {a : Answer} {s : Session τ}
    (h : p.session.Finishing st stalled c (.ok (some (a, s)))) :
    Sound (tr ++ [.answered st.number c stalled a])
      { p with session := s, producer := .free, lent := p.lentAfter st c } := by
  cases h with
  | borrow hfillable hsize => exact hs.borrowed hst hwait hfillable stalled
  | commit hblocks hfilling hopened =>
    exact hs.commit_done hst hwait hblocks p.session.transport
      (Stream.number_handedOver st stalled) (Stream.widens_handedOver st stalled) rfl
      (by rwa [Stream.phase_handedOver])
  | start hblocks hfilling hopened t hstart =>
    exact hs.commit_done hst hwait hblocks t (Stream.number_handedOver st stalled)
      (Stream.widens_handedOver st stalled) rfl (by simp)
  | refuse hblocks hfilling hopened e t hstart =>
    exact hs.commit_refused hst hwait hopened stalled t e
  | drain hblocks => exact hs.drained hst hwait stalled

-- No action of the producer breaks anything.
theorem transition (hs : Sound tr p) {es : List Event} {q : Playback τ} (h : p.Transition es q) :
    Sound (tr ++ es) q := by
  cases h with
  | idle => exact hs.of_same (ledger_append_nil · tr) rfl rfl rfl rfl rfl rfl
  | fault | skipped | paused | resumed | closed | notRestarted =>
    exact hs.of_same (fun k => ledger_concat k tr _) rfl rfl rfl rfl rfl rfl
  | configured => exact hs.of_same (ledger_append_nil · tr) rfl rfl rfl rfl rfl rfl
  | notOpened hfree hclosed mem requested e s hend =>
    cases hend <;> exact hs.of_same (fun k => ledger_concat k tr _) rfl rfl rfl rfl rfl rfl
  | opened hfree hclosed mem requested f s hend =>
    cases hend with
    | installed _ b handle t t' threshold hnegotiate hallocate hcreate hregister hthreshold =>
      exact hs.installed hfree hclosed hnegotiate hallocate handle t' threshold
  | entered hfree c st hst hphase hc => exact hs.entered hfree hst hphase hc
  | committing hfree st st' hst hphase hfilling hwiden =>
    exact hs.committing hfree hst hphase hfilling hwiden
  | wrote hfree edits st slot hst hlent => exact hs.wrote hfree hst hlent edits
  | stopped hfree st hst hphase =>
    exact hs.of_phase hfree hst (by simp [hphase]) (by simp) _ fun _ _ => rfl
  | restarted hfree st hst hphase t hstart =>
    exact hs.of_phase hfree hst (by simp [hphase]) (by simp) t fun _ _ => rfl
  | closing hfree st hst => exact hs.closing hfree hst _ _
  | finished c hwait st hst stalled a s hend => exact hs.finished hwait hst hend
  | handedOver hwait st hst hphase hblocks hfilling stalled =>
    exact hs.handedOver hst hwait hphase hblocks stalled
  | launched stalled hlaunch st hst t hstart => exact hs.launched hst hlaunch t

theorem step (hs : Sound tr p) (a : Action) : Sound (tr ++ (p.step a).1) (p.step a).2 := by
  rcases p.step_cases a with ⟨k, c, -, hstep⟩ | h
  · rw [hstep]
    exact hs.device k c
  · exact hs.transition h

theorem run (hs : Sound tr p) (as : List Action) : Sound (tr ++ (p.run as).1) (p.run as).2 := by
  have hstart : Sound (tr ++ []) p := hs.of_same (ledger_append_nil · tr) rfl rfl rfl rfl rfl rfl
  refine run_induction (motive := fun es q => Sound (tr ++ es) q) hstart ?_ as
  intro es q a hq
  rw [← List.append_assoc]
  exact hq.step a

end Sound

variable [Transport τ]

/-- Every playback that a run reaches is sound, whatever the transport does. -/
theorem sound_run (t : τ) (c : Settings) (as : List Action) :
    Sound ((new t c).run as).1 ((new t c).run as).2 :=
  run_induction (sound_new t c) (fun _ _ a hs => hs.step a) as

end Playback

end Playout

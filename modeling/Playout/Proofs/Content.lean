import Playout.Proofs.Line

/-!
# The bytes of a line

`Line.Sized` fixes every size once and for all.  `Line.Faithful` ties the bytes to the ledger: what
the producer writes is the draft, what waits is what was handed over and not taken, and what a
replay would show is the last buffer that was taken.
-/

namespace Playout

/-! ## 1. Drafts -/

namespace Feed

/-- What the producer is writing, as the slot that is being filled shows it: its first `n` bytes. -/
def draft? (f : Feed) (n : Nat) : Option Bytes :=
  if f.handshake.state f.handshake.active = .filling then
    some ((f.content f.handshake.active).first n)
  else none

variable {f : Feed}

theorem draft?_of_filling (h : f.handshake.state f.handshake.active = .filling) (n : Nat) :
    f.draft? n = some ((f.content f.handshake.active).first n) :=
  if_pos h

theorem draft?_of_ne (h : f.handshake.state f.handshake.active ≠ .filling) (n : Nat) :
    f.draft? n = none :=
  if_neg h

theorem eq_of_draft? {n : Nat} {b : Bytes} (h : f.draft? n = some b) :
    b = (f.content f.handshake.active).first n := by
  unfold draft? at h
  split at h
  next => exact (Option.some.inj h).symm
  next => cases h

-- A draft that has been begun is what the slot holds, and so is one that begins now.
theorem getD_draft? (f : Feed) (n : Nat) :
    (f.draft? n).getD ((f.content f.handshake.active).first n) =
      (f.content f.handshake.active).first n := by
  unfold draft?
  split <;> rfl

-- A draft goes on as long as its slot is active and being filled.
theorem draft?_setHandshake {h : Handshake} (hactive : h.active = f.handshake.active)
    (hfilling : h.state f.handshake.active = .filling ↔
      f.handshake.state f.handshake.active = .filling) (n : Nat) :
    (f.setHandshake h).draft? n = f.draft? n := by
  unfold draft?
  rw [handshake_setHandshake, hactive]
  simp only [hfilling]
  rfl

end Feed

namespace Line

variable {x y : Line}

/-! ## 2. Sizes -/

/-- Every buffer has one size, silence is silent, and duplicated samples come in whole pairs. -/
structure Sized (x : Line) : Prop where
  silence : x.feed.silence = .zeros x.feed.bufferBytes
  content : ∀ s ∈ x.feed.handshake.members, (x.feed.content s).size = x.feed.bufferBytes
  doubled : ∀ width, x.ledger.doubled = some width →
    x.feed.format.encoding.isLinear = true ∧ width = x.feed.format.encoding.bits / 8 ∧
      ∃ frames, x.feed.bufferBytes = frames * (2 * width)

theorem producerBytes_le (x : Line) : x.producerBytes ≤ x.feed.bufferBytes := by
  unfold producerBytes
  split <;> omega

theorem doubled_take (l : Ledger) (d : Option Delivery) : (l.take d).doubled = l.doubled := by
  cases d <;> rfl

theorem members_setHandshake_eq {h h' : Handshake} (hd : h'.double = h.double) :
    h'.members = h.members := by
  rw [Handshake.members, Handshake.members, hd]

namespace Sized

-- A step that writes no bytes keeps every size.
theorem of_move (hx : x.Sized) {y : Line} {h : Handshake} (hfeed : y.feed = x.feed.setHandshake h)
    (hd : h.double = x.feed.handshake.double) (hw : y.ledger.doubled = x.ledger.doubled) :
    y.Sized where
  silence := by
    rw [hfeed]
    exact hx.silence
  content s hs := by
    rw [hfeed, Feed.handshake_setHandshake, members_setHandshake_eq hd] at hs
    rw [hfeed]
    exact hx.content s hs
  doubled width hwidth := by
    rw [hw] at hwidth
    rw [hfeed]
    exact hx.doubled width hwidth

theorem content_active (hx : x.Sized) (ho : x.Orderly) :
    (x.feed.content x.feed.handshake.active).size = x.feed.bufferBytes :=
  hx.content _ ho.shaped.active_mem

-- Widening gives a full buffer.
theorem size_widened (hx : x.Sized) (ho : x.Orderly) : x.widened.size = x.feed.bufferBytes := by
  have hactive := hx.content_active ho
  unfold widened
  split
  next => exact hactive
  next width hwidth =>
    obtain ⟨-, -, frames, hbytes⟩ := hx.doubled width hwidth
    have heven : frames * (2 * width) = 2 * (frames * width) := Nat.mul_left_comm _ _ _
    rw [Bytes.size_duplicate, Bytes.size_first]
    omega

theorem write (hx : x.Sized) (edits : List Edit) : (x.write edits).Sized where
  silence := hx.silence
  content s hs := by
    show ((x.feed.edit _ _ _).content s).size = _
    rw [Feed.size_content_edit]
    exact hx.content s hs
  doubled := hx.doubled

theorem commit (hx : x.Sized) (ho : x.Orderly) : x.commit.Sized where
  silence := hx.silence
  content s hs := by
    show ((x.feed.setContent _ _).content s).size = _
    rw [Feed.content_setContent]
    split
    next => exact hx.size_widened ho
    next => exact hx.content s hs
  doubled := hx.doubled

theorem step (hx : x.Sized) (ho : x.Orderly) (h : x.Step y) : y.Sized := by
  cases h with
  | count c => exact ⟨hx.silence, hx.content, hx.doubled⟩
  | deliver s n hgrant hready => exact hx.of_move rfl rfl (doubled_take _ _)
  | replay hnone hempty => exact hx.of_move rfl rfl rfl
  | giveBack s c hclaims => exact hx.of_move rfl rfl rfl
  | borrow hsealed hfillable => exact hx.of_move rfl rfl rfl
  | write edits hsealed hlent => exact hx.write edits
  | commit hsealed hfilling => exact hx.commit ho
  | handOver hsealed hsibling => exact hx.of_move rfl (Handshake.double_handed _) rfl
  | settle => exact ⟨hx.silence, hx.content, hx.doubled⟩
  | discard hsealed hopened => exact hx.of_move rfl rfl rfl
  | close hsealed => exact ⟨hx.silence, hx.content, hx.doubled⟩

end Sized

/-! ## 3. Bytes -/

/-- The bytes are those of the ledger. -/
structure Faithful (x : Line) : Prop where
  -- The producer's part of a buffer being filled is the draft, and there is no other draft.
  draft : x.sealed = false → x.ledger.draft = x.feed.draft? x.producerBytes
  -- A sealed buffer is the page that will be handed over.
  page : x.sealed = true → x.feed.content x.feed.handshake.active = x.ledger.page
  size_handed : ∀ page ∈ x.ledger.handed, page.size = x.feed.bufferBytes
  taken_le : x.ledger.taken.length ≤ x.ledger.handed.length
  -- The deliveries are the first bytes of the buffers handed over, one for one.
  taken : ∀ (i : Nat) (d : Delivery), x.ledger.taken[i]? = some d →
    ∃ page : Bytes, x.ledger.handed[i]? = some page ∧
      d.data = page.first d.requested ∧ d.delivered = min d.requested x.feed.bufferBytes
  -- What has not been taken waits.
  waiting : ∀ s, x.feed.handshake.state s = .ready →
    x.ledger.handed.drop x.ledger.taken.length = [x.feed.content s]
  none_waiting : (∀ s, x.feed.handshake.state s ≠ .ready) →
    x.ledger.handed.drop x.ledger.taken.length = []
  -- Until something is taken, the first buffer handed over waits in the first slot.
  unplayed : x.ledger.taken = [] → x.feed.handshake.last = .a ∧
    (x.ledger.handed ≠ [] → x.feed.handshake.state .a = .ready)
  -- The slot of the last claim keeps what it held until it is filled again.
  echo : (x.feed.handshake.state x.feed.handshake.last = .empty ∨
      x.feed.handshake.state x.feed.handshake.last = .consumed) →
    x.feed.content x.feed.handshake.last = x.ledger.echo x.feed.bufferBytes

namespace Faithful

-- A step of the handshake that neither fills, readies nor turns to another slot.
theorem of_move (hx : x.Faithful) {y : Line} {h : Handshake}
    (hfeed : y.feed = x.feed.setHandshake h) (hledger : y.ledger = x.ledger)
    (hsealed : y.sealed = x.sealed) (hactive : h.active = x.feed.handshake.active)
    (hlast : h.last = x.feed.handshake.last)
    (hfilling : ∀ s, h.state s = .filling ↔ x.feed.handshake.state s = .filling)
    (hready : ∀ s, h.state s = .ready ↔ x.feed.handshake.state s = .ready)
    (hrest : x.feed.handshake.state x.feed.handshake.last = .empty ∨
      x.feed.handshake.state x.feed.handshake.last = .consumed ∨
      h.state x.feed.handshake.last = x.feed.handshake.state x.feed.handshake.last) :
    y.Faithful := by
  have hbytes : y.producerBytes = x.producerBytes := by
    rw [producerBytes, producerBytes, hledger, hfeed, Feed.bufferBytes_setHandshake]
  constructor
  case draft =>
    intro hs
    rw [hledger, hfeed, hbytes, Feed.draft?_setHandshake hactive (hfilling _)]
    exact hx.draft (hsealed ▸ hs)
  case page =>
    intro hs
    rw [hledger, hfeed, Feed.handshake_setHandshake, hactive]
    exact hx.page (hsealed ▸ hs)
  case size_handed =>
    rw [hledger, hfeed]
    exact hx.size_handed
  case taken_le =>
    rw [hledger]
    exact hx.taken_le
  case taken =>
    rw [hledger, hfeed]
    exact hx.taken
  case waiting =>
    intro s hs
    rw [hfeed, Feed.handshake_setHandshake, hready] at hs
    rw [hledger, hfeed]
    exact hx.waiting s hs
  case none_waiting =>
    intro hs
    rw [hledger]
    apply hx.none_waiting
    intro s hr
    apply hs s
    rw [hfeed, Feed.handshake_setHandshake, hready]
    exact hr
  case unplayed =>
    rw [hledger, hfeed, Feed.handshake_setHandshake, hlast, hready]
    exact hx.unplayed
  case echo =>
    rw [hledger, hfeed, Feed.handshake_setHandshake, hlast]
    intro hs
    apply hx.echo
    rcases hrest with h | h | h
    · exact .inl h
    · exact .inr h
    · rwa [h] at hs

theorem replay (hx : x.Faithful)
    (hempty : x.feed.handshake.state x.feed.handshake.last = .empty) : x.replay.Faithful := by
  refine hx.of_move rfl rfl rfl rfl rfl ?_ ?_ (.inl hempty)
  · exact fun s => Handshake.state_claimed_iff (by decide) (by simp [hempty])
  · exact fun s => Handshake.state_claimed_iff (by decide) (by simp [hempty])

theorem giveBack (hx : x.Faithful) (ho : x.Orderly) {s : Slot} {c : Slot → Nat}
    (hclaims : x.claims = claim c s) : (x.giveBack s c).Faithful := by
  obtain ⟨hconsumed, -⟩ := ho.consumed_of_claim hclaims
  refine hx.of_move rfl rfl rfl rfl rfl ?_ ?_ ?_
  · exact fun t => Handshake.state_giveBack_iff hconsumed (by decide) (by decide)
  · exact fun t => Handshake.state_giveBack_iff hconsumed (by decide) (by decide)
  · by_cases hs : x.feed.handshake.last = s
    · rw [hs]
      exact .inr (.inl hconsumed)
    · rw [Handshake.state_giveBack, if_neg hs]
      exact .inr (.inr rfl)

-- A claim on a waiting slot takes the next buffer of the ledger.
theorem deliver (hx : x.Faithful) (ho : x.Orderly) {s : Slot}
    (hready : x.feed.handshake.state s = .ready) (n : Nat) : (x.deliver s n).Faithful := by
  -- one buffer has been handed over and not taken, and it is the one in this slot
  have hdrop := hx.waiting s hready
  have hlength : x.ledger.handed.length = x.ledger.taken.length + 1 := by
    have h := congrArg List.length hdrop
    rw [List.length_drop, List.length_singleton] at h
    omega
  have hnext : x.ledger.handed[x.ledger.taken.length]? = some (x.feed.content s) := by
    have h := congrArg (·[0]?) hdrop
    simpa [List.getElem?_drop] using h
  have hsize : (x.feed.content s).size = x.feed.bufferBytes :=
    hx.size_handed _ (List.mem_of_getElem? hnext)
  have hnone : ∀ t, (x.feed.handshake.claimed s).state t ≠ .ready := by
    intro t ht
    obtain ⟨hne, ht⟩ := Handshake.state_of_state_claimed (by decide) ht
    exact hne (ho.ready_unique ht hready)
  have htaken : (x.deliver s n).ledger.taken = x.ledger.taken ++
      [⟨n, (x.feed.content s).first (x.feed.grant n), x.feed.grant n⟩] := rfl
  constructor
  case draft =>
    intro hs
    refine (hx.draft hs).trans (Eq.symm ?_)
    apply Feed.draft?_setHandshake
    · rfl
    · exact Handshake.state_claimed_iff (by decide) (by simp [hready])
  case page => exact hx.page
  case size_handed => exact hx.size_handed
  case taken_le =>
    rw [htaken, List.length_append, List.length_singleton]
    exact Nat.le_of_eq hlength.symm
  case taken =>
    intro i d hd
    rw [htaken, List.getElem?_append] at hd
    split at hd
    next => exact hx.taken i d hd
    next hi =>
      -- the new delivery is the last entry
      obtain ⟨hi', rfl⟩ : i = x.ledger.taken.length ∧ _ = d := by
        have hlt := (List.getElem?_eq_some_iff.mp hd).1
        rw [List.length_singleton] at hlt
        have heq : i - x.ledger.taken.length = 0 := by omega
        rw [heq] at hd
        exact ⟨by omega, Option.some.inj hd⟩
      refine ⟨x.feed.content s, by rw [hi']; exact hnext, ?_, rfl⟩
      show (x.feed.content s).first (min n x.feed.bufferBytes) = _
      rw [← hsize, Bytes.first_min_size]
  case waiting =>
    intro t ht
    exact absurd ht (hnone t)
  case none_waiting =>
    intro _
    rw [htaken, List.length_append, List.length_singleton]
    exact List.drop_eq_nil_of_le (Nat.le_of_eq hlength)
  case unplayed =>
    intro h
    rw [htaken] at h
    simp at h
  case echo =>
    intro _
    -- the slot just claimed holds what was played last
    show x.feed.content s = _
    have hplayed : (x.deliver s n).ledger.played = some (x.feed.content s) :=
      Ledger.played_take hnext _
    rw [Ledger.echo, hplayed]
    rfl

-- What the producer is handed becomes the draft, unless it is the draft already.
theorem borrow (hx : x.Faithful) (hsealed : x.sealed = false)
    (hfillable : x.feed.handshake.state x.feed.handshake.active = .empty ∨
      x.feed.handshake.state x.feed.handshake.active = .filling) : x.borrow.Faithful := by
  have hstate : ∀ t, x.borrow.feed.handshake.state t =
      if t = x.feed.handshake.active then .filling else x.feed.handshake.state t :=
    fun t => Handshake.state_setState _ _ t _
  have hready : ∀ t, x.borrow.feed.handshake.state t = .ready ↔
      x.feed.handshake.state t = .ready := by
    intro t
    rw [hstate]
    split
    next ht =>
      rw [ht]
      rcases hfillable with h | h <;> simp [h]
    next => rfl
  constructor
  case draft =>
    intro _
    rw [Feed.draft?_of_filling ((hstate _).trans (if_pos rfl))]
    show some (x.ledger.draft.getD ((x.feed.content _).first x.producerBytes)) = _
    rw [hx.draft hsealed, Feed.getD_draft?]
    rfl
  case page =>
    intro hs
    exact absurd (hsealed.symm.trans hs) (by decide)
  case size_handed => exact hx.size_handed
  case taken_le => exact hx.taken_le
  case taken => exact hx.taken
  case waiting =>
    intro t ht
    exact hx.waiting t ((hready t).mp ht)
  case none_waiting =>
    intro hnone
    exact hx.none_waiting fun t ht => hnone t ((hready t).mpr ht)
  case unplayed =>
    intro hempty
    obtain ⟨hlast, hfirst⟩ := hx.unplayed hempty
    exact ⟨hlast, fun hne => (hready _).mpr (hfirst hne)⟩
  case echo =>
    intro hrest
    replace hrest : x.borrow.feed.handshake.state x.feed.handshake.last = .empty ∨
      x.borrow.feed.handshake.state x.feed.handshake.last = .consumed := hrest
    rw [hstate] at hrest
    -- a slot that is filled again has no echo any more
    split at hrest
    next => simp at hrest
    next => exact hx.echo hrest

-- A step that changes only the content of the slot being filled.
theorem of_filled (hx : x.Faithful) {y : Line}
    (hfilling : x.feed.handshake.state x.feed.handshake.active = .filling)
    (hhandshake : y.feed.handshake = x.feed.handshake)
    (hbytes : y.feed.bufferBytes = x.feed.bufferBytes)
    (hcontent : ∀ s, s ≠ x.feed.handshake.active → y.feed.content s = x.feed.content s)
    (hhanded : y.ledger.handed = x.ledger.handed) (htaken : y.ledger.taken = x.ledger.taken)
    (hrefused : y.ledger.refused = x.ledger.refused)
    (hdraft : y.sealed = false → y.ledger.draft =
      some ((y.feed.content x.feed.handshake.active).first y.producerBytes))
    (hpage : y.sealed = true → y.feed.content x.feed.handshake.active = y.ledger.page) :
    y.Faithful := by
  have hother : ∀ s, x.feed.handshake.state s ≠ .filling → y.feed.content s = x.feed.content s := by
    intro s hs
    apply hcontent
    rintro rfl
    exact hs hfilling
  have hecho : y.ledger.echo y.feed.bufferBytes = x.ledger.echo x.feed.bufferBytes := by
    rw [Ledger.echo, Ledger.echo, Ledger.played, Ledger.played, hhanded, htaken, hrefused, hbytes]
  constructor
  case draft =>
    intro hs
    rw [Feed.draft?_of_filling (by rw [hhandshake]; exact hfilling), hhandshake]
    exact hdraft hs
  case page =>
    rw [hhandshake]
    exact hpage
  case size_handed =>
    rw [hhanded, hbytes]
    exact hx.size_handed
  case taken_le =>
    rw [hhanded, htaken]
    exact hx.taken_le
  case taken =>
    rw [hhanded, htaken, hbytes]
    exact hx.taken
  case waiting =>
    intro s hs
    rw [hhandshake] at hs
    rw [hhanded, htaken, hother s (by simp [hs])]
    exact hx.waiting s hs
  case none_waiting =>
    rw [hhanded, htaken, hhandshake]
    exact hx.none_waiting
  case unplayed =>
    rw [hhanded, htaken, hhandshake]
    exact hx.unplayed
  case echo =>
    rw [hhandshake, hecho]
    intro hrest
    rw [hother _ (by rcases hrest with h | h <;> simp [h])]
    exact hx.echo hrest

-- The draft is written as the buffer is.
theorem write (hx : x.Faithful) (ho : x.Orderly) (hz : x.Sized) (hsealed : x.sealed = false)
    (hlent : x.lent ≠ none) (edits : List Edit) : (x.write edits).Faithful := by
  obtain ⟨s, hs⟩ := Option.ne_none_iff_exists'.mp hlent
  obtain ⟨rfl, hfilling⟩ := ho.lent_filling s hs
  refine hx.of_filled hfilling rfl rfl ?_ rfl rfl rfl ?_ ?_
  · intro t ht
    exact (Feed.content_edit _ _ _ _ _).trans (if_neg ht)
  · intro _
    have hle : x.producerBytes ≤ (x.feed.content x.feed.handshake.active).size := by
      rw [hz.content_active ho]
      exact x.producerBytes_le
    show x.ledger.draft.map (Edit.applyAll edits) =
      some (((x.feed.edit _ x.producerBytes edits).content _).first x.producerBytes)
    rw [Feed.first_content_edit hle, hx.draft hsealed, Feed.draft?_of_filling hfilling,
      Option.map_some]
  · intro hs'
    exact absurd (hsealed.symm.trans hs') (by decide)

-- The final content of a buffer is the page.
theorem widened_eq_page (hx : x.Faithful) (ho : x.Orderly) (hz : x.Sized)
    (hsealed : x.sealed = false)
    (hfilling : x.feed.handshake.state x.feed.handshake.active = .filling) :
    x.widened = x.ledger.page := by
  have hdraft := (hx.draft hsealed).trans (Feed.draft?_of_filling hfilling _)
  have hsize := hz.content_active ho
  unfold widened Ledger.page
  rw [hdraft, Option.getD_some]
  cases hw : x.ledger.doubled with
  | none =>
    -- the producer writes the whole buffer
    have hfull : x.producerBytes = x.feed.bufferBytes := by simp [producerBytes, hw]
    rw [hfull, Bytes.first_of_size_le (Nat.le_of_eq hsize)]
  | some width =>
    -- the producer writes the first half, and the page is made of that
    have hhalf : x.producerBytes = x.feed.bufferBytes / 2 := by simp [producerBytes, hw]
    rw [hhalf]

theorem commit (hx : x.Faithful) (ho : x.Orderly) (hz : x.Sized) (hsealed : x.sealed = false)
    (hfilling : x.feed.handshake.state x.feed.handshake.active = .filling) :
    x.commit.Faithful := by
  refine hx.of_filled hfilling rfl rfl ?_ rfl rfl rfl ?_ ?_
  · intro t ht
    exact (Feed.content_setContent _ _ _ _).trans (if_neg ht)
  · intro hs
    cases hs
  · intro _
    show (x.feed.setContent _ _).content _ = x.ledger.page
    rw [Feed.content_setContent, if_pos rfl, hx.widened_eq_page ho hz hsealed hfilling]

-- A hand-over appends the page, and nothing waited before.
theorem handOver (hx : x.Faithful) (ho : x.Orderly) (hz : x.Sized) (hsealed : x.sealed = true)
    (hsibling : x.feed.handshake.siblingReady = false) : x.handOver.Faithful := by
  have hpage := hx.page hsealed
  have hnone := ho.none_ready hsealed hsibling
  have hlength : x.ledger.taken.length = x.ledger.handed.length := by
    have hdrop := hx.none_waiting hnone
    have hle := hx.taken_le
    rw [List.drop_eq_nil_iff] at hdrop
    omega
  have hhanded : x.handOver.ledger.handed = x.ledger.handed ++ [x.ledger.page] := rfl
  have hstate : ∀ t, x.handOver.feed.handshake.state t =
      if t = x.feed.handshake.active then .ready else x.feed.handshake.state t :=
    Handshake.state_handed _
  constructor
  case draft =>
    intro _
    refine (Feed.draft?_of_ne (fun hf => ?_) _).symm
    replace hf : x.feed.handshake.handed.state x.feed.handshake.handed.active = .filling := hf
    rw [Handshake.state_handed] at hf
    split at hf
    next => cases hf
    next hne => exact absurd (ho.shaped.filling_active _ hf) hne
  case page =>
    intro hs
    cases hs
  case size_handed =>
    intro page hmem
    rw [hhanded, List.mem_append, List.mem_singleton] at hmem
    rcases hmem with hmem | rfl
    · exact hx.size_handed page hmem
    · rw [← hpage]
      exact hz.content_active ho
  case taken_le =>
    rw [hhanded, List.length_append]
    exact Nat.le_trans hx.taken_le (Nat.le_add_right _ _)
  case taken =>
    intro i d hd
    obtain ⟨page, hi, hdata⟩ := hx.taken i d hd
    refine ⟨page, ?_, hdata⟩
    rw [hhanded, List.getElem?_append_left (List.getElem?_eq_some_iff.mp hi).1]
    exact hi
  case waiting =>
    intro s hs
    rw [hstate] at hs
    split at hs
    next hactive =>
      -- everything before the page has been taken
      rw [hhanded, hactive]
      show (x.ledger.handed ++ [x.ledger.page]).drop x.ledger.taken.length = _
      rw [hlength, List.drop_left, ← hpage]
      rfl
    next => exact absurd hs (hnone s)
  case none_waiting =>
    intro hs
    exact absurd ((hstate _).trans (if_pos rfl)) (hs x.feed.handshake.active)
  case unplayed =>
    intro hempty
    replace hempty : x.ledger.taken = [] := hempty
    obtain ⟨hlast, -⟩ := hx.unplayed hempty
    -- nothing has been taken, so this is the first hand-over, and it is in the first slot
    have hstart : x.ledger.handed = [] := by
      rw [hempty] at hlength
      exact List.eq_nil_of_length_eq_zero hlength.symm
    refine ⟨(Handshake.last_handed _).trans hlast, fun _ => ?_⟩
    rw [hstate, if_pos (ho.unstarted hstart).1.symm]
  case echo =>
    intro hrest
    have hlast : x.handOver.feed.handshake.last = x.feed.handshake.last := Handshake.last_handed _
    rw [hlast, hstate] at hrest
    rw [hlast]
    -- the slot of the last claim is another one, since this one waits now
    split at hrest
    next => simp at hrest
    next => exact (hx.echo hrest).trans (Ledger.echo_handOver hx.taken_le _).symm

-- A refused first commit leaves its page behind in the first slot.
theorem discard (hx : x.Faithful) (ho : x.Orderly) (hsealed : x.sealed = true)
    (hopened : x.ledger.handed = []) : x.discard.Faithful := by
  obtain ⟨hactive, -⟩ := ho.unstarted hopened
  have hstate : ∀ t, x.discard.feed.handshake.state t = .empty :=
    Handshake.state_initial x.feed.handshake.double
  constructor
  case draft =>
    intro _
    exact (Feed.draft?_of_ne (by rw [hstate]; decide) _).symm
  case page =>
    intro hs
    cases hs
  case size_handed => exact hx.size_handed
  case taken_le => exact hx.taken_le
  case taken => exact hx.taken
  case waiting =>
    intro s hs
    rw [hstate] at hs
    cases hs
  case none_waiting =>
    intro _
    show x.ledger.handed.drop _ = []
    rw [hopened, List.drop_nil]
  case unplayed =>
    intro _
    exact ⟨rfl, fun hne => absurd hopened hne⟩
  case echo =>
    intro _
    -- only the states are cleared, so the first slot still holds the page
    show x.feed.content .a = x.ledger.refuse.echo _
    rw [Ledger.echo_refuse hopened, ← hactive, hx.page hsealed]

theorem step (hx : x.Faithful) (ho : x.Orderly) (hz : x.Sized) (h : x.Step y) : y.Faithful := by
  cases h with
  | count c =>
    exact ⟨hx.draft, hx.page, hx.size_handed, hx.taken_le, hx.taken, hx.waiting, hx.none_waiting,
      hx.unplayed, hx.echo⟩
  | deliver s n hgrant hready => exact hx.deliver ho hready n
  | replay hnone hempty => exact hx.replay hempty
  | giveBack s c hclaims => exact hx.giveBack ho hclaims
  | borrow hsealed hfillable => exact hx.borrow hsealed hfillable
  | write edits hsealed hlent => exact hx.write ho hz hsealed hlent edits
  | commit hsealed hfilling => exact hx.commit ho hz hsealed hfilling
  | handOver hsealed hsibling => exact hx.handOver ho hz hsealed hsibling
  | settle =>
    exact ⟨hx.draft, hx.page, hx.size_handed, hx.taken_le, hx.taken, hx.waiting, hx.none_waiting,
      hx.unplayed, hx.echo⟩
  | discard hsealed hopened => exact hx.discard ho hsealed hopened
  | close hsealed =>
    exact ⟨hx.draft, hx.page, hx.size_handed, hx.taken_le, hx.taken, hx.waiting, hx.none_waiting,
      hx.unplayed, hx.echo⟩

end Faithful

/-! ## 4. The invariant of a line -/

/-- All three invariants. -/
structure Inv (x : Line) : Prop where
  orderly : x.Orderly
  sized : x.Sized
  faithful : x.Faithful

theorem Inv.step (hx : x.Inv) (h : x.Step y) : y.Inv :=
  ⟨hx.orderly.step h, hx.sized.step hx.orderly h, hx.faithful.step hx.orderly hx.sized h⟩

/-- The line of a stream that has just been opened. -/
def fresh (double : Bool) (bytes : Nat) (format : Format) (fallback : Fallback)
    (doubled : Option Nat) : Line where
  feed := Feed.ofBuffers (.zeroed double bytes) format fallback
  claims _ := 0
  ledger := .fresh doubled
  sealed := false
  lent := none

section Fresh

variable (double : Bool) (bytes : Nat) (format : Format) (fallback : Fallback)
  (doubled : Option Nat)

theorem state_fresh (s : Slot) :
    (fresh double bytes format fallback doubled).feed.handshake.state s = .empty :=
  Handshake.state_initial double s

theorem bufferBytes_fresh : (fresh double bytes format fallback doubled).feed.bufferBytes = bytes :=
  Bytes.size_zeros bytes

theorem orderly_fresh : (fresh double bytes format fallback doubled).Orderly where
  shaped := .initial double
  ready_inactive _ s hs := by simp [state_fresh] at hs
  custody s := by
    rw [state_fresh]
    rfl
  unstarted _ := ⟨rfl, rfl, state_fresh .., by simp [state_fresh]⟩
  lent_filling s hs := by cases hs
  sealed_filling h := by cases h

theorem sized_fresh
    (h : ∀ width, doubled = some width → format.encoding.isLinear = true ∧
      width = format.encoding.bits / 8 ∧ ∃ frames, bytes = frames * (2 * width)) :
    (fresh double bytes format fallback doubled).Sized where
  silence := by
    rw [bufferBytes_fresh]
    rfl
  content s hs := by
    rw [bufferBytes_fresh]
    rw [Handshake.mem_members] at hs
    cases s with
    | a => exact Bytes.size_zeros bytes
    | b =>
      have hdouble : double = true := hs.resolve_left (by decide)
      subst hdouble
      exact Bytes.size_zeros bytes
  doubled width hw := by
    rw [bufferBytes_fresh]
    exact h width hw

theorem faithful_fresh : (fresh double bytes format fallback doubled).Faithful where
  draft _ := (Feed.draft?_of_ne (by rw [state_fresh]; decide) _).symm
  page h := by cases h
  size_handed page hpage := by cases hpage
  taken_le := Nat.le_refl 0
  taken i d hd := by cases hd
  waiting s hs := by simp [state_fresh] at hs
  none_waiting _ := rfl
  unplayed _ := ⟨rfl, fun h => absurd rfl h⟩
  echo _ := by
    rw [bufferBytes_fresh]
    rfl

end Fresh

/-- The claims with that of a pull among them. -/
def claimOf (c : Slot → Nat) : Option Slot → Slot → Nat
  | none => c
  | some s => claim c s

-- A pull is one step of the line, counters aside.
theorem Inv.pull (hx : x.Inv) (n : Nat) :
    Inv { x with
      feed := (x.feed.pull n).2
      claims := claimOf x.claims (x.feed.pull n).1.claimed
      ledger := x.ledger.take
        (Delivery.of? (.pull n) ((x.feed.pull n).2.view (x.feed.pull n).1)) } := by
  have hpull := x.feed.pulled n
  generalize x.feed.pull n = r at hpull
  cases hpull with
  | nothing hgrant => exact hx
  | delivered s hgrant hmem hready =>
    have hline := (hx.step (.deliver s n hgrant hready)).step
      (.count (x.feed.counters.addDelivery (x.feed.grant n)))
    have htaken : ∀ data : Bytes,
        Delivery.of? (.pull n) (.audio data (x.feed.grant n)
          (Pull.isUnderrun ⟨some s, x.feed.grant n, x.feed.grant n⟩)) =
            some ⟨n, data, x.feed.grant n⟩ := by
      intro data
      simp [Delivery.of?, hgrant]
    simp only [Feed.view, htaken]
    exact hline
  | replayed hgrant hnone hfallback hempty =>
    have hready : ∀ s, x.feed.handshake.state s ≠ .ready := by
      intro s hs
      exact hnone s (hx.orderly.shaped.ready_mem hs) hs
    exact (hx.step (.replay hready hempty)).step (.count x.feed.counters.addUnderrun)
  | silent hgrant hnone hreplay => exact hx.step (.count x.feed.counters.addUnderrun)

-- Dropping a pull is one step of the line.
theorem Inv.drop (hx : x.Inv) {p : Pull} {f : Feed} {c : Slot → Nat}
    (e : x.feed.drop p = .ok f) (hclaims : x.claims = claimOf c p.claimed) :
    Inv { x with feed := f, claims := c } := by
  obtain ⟨hp, rfl⟩ | ⟨s, hp, -, rfl⟩ := Feed.drop_eq_ok e
  · rw [hp] at hclaims
    rw [show c = x.claims from hclaims.symm]
    exact hx
  · rw [hp] at hclaims
    exact hx.step (.giveBack s c hclaims)

end Line

end Playout

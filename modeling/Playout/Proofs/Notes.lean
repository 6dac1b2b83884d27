import Playout.Bench.Feed
import Playout.Proofs.Opening
import Playout.Proofs.Sound

/-!
# The notes of an observer

A feed on its own, without a session: the producer fills and hands over whenever it likes, so two
slots can wait at once, and the device pulls, holds and drops.  An observer writes down what each slot
held when it was handed over and what was delivered last.  `Notes.Right` says that the feed still
shows what the notes say, and no step of either side breaks it.
-/

namespace Playout

/-! ## 1. The foremost slot -/

namespace Handshake

variable {h : Handshake} {s : Slot}

/-- The lowest slot that waits. -/
def firstReady? (h : Handshake) : Option Slot :=
  h.members.find? fun s => decide (h.state s = .ready)

/-- A slot that waits while no lower one does. -/
def Foremost (h : Handshake) (s : Slot) : Prop :=
  h.state s = .ready ∧ ∀ t, h.state t = .ready → s.index ≤ t.index

theorem claimReady_of_firstReady? (hfirst : h.firstReady? = some s) :
    h.claimReady = some (s, h.claimed s) := by
  unfold claimReady
  rw [show h.members.find? _ = some s from hfirst]
  rfl

theorem ready_of_firstReady? (hfirst : h.firstReady? = some s) : h.state s = .ready := by
  have hready := List.find?_some hfirst
  exact of_decide_eq_true hready

theorem Shaped.none_ready (hh : h.Shaped) (hfirst : h.firstReady? = none) (s : Slot) :
    h.state s ≠ .ready := by
  intro hs
  simpa [hs] using List.find?_eq_none.mp hfirst s (hh.ready_mem hs)

theorem Shaped.firstReady?_of_foremost (hh : h.Shaped) (hs : h.Foremost s) :
    h.firstReady? = some s := by
  obtain ⟨hready, hleast⟩ := hs
  have hmem := hh.ready_mem hready
  cases s with
  | a => cases hd : h.double <;> simp [firstReady?, members, hd, hready]
  | b =>
    -- the second slot takes part and is foremost, so the first does not wait
    have hd : h.double = true := by simpa [mem_members] using hmem
    have ha : h.state .a ≠ .ready := by
      intro ha
      have hle := hleast .a ha
      simp [Slot.index] at hle
    simp [firstReady?, members, hd, hready, ha]

end Handshake

-- What the lowest waiting slot holds is delivered.
theorem Feed.pull_of_firstReady? {f : Feed} {n : Nat} {s : Slot} (hgrant : f.grant n ≠ 0)
    (hfirst : f.handshake.firstReady? = some s) :
    f.pull n = (⟨some s, f.grant n, f.grant n⟩,
      { f.setHandshake (f.handshake.claimed s) with
        counters := f.counters.addDelivery (f.grant n) }) := by
  unfold pull
  simp only [hgrant, if_false, Handshake.claimReady_of_firstReady? hfirst]
  rfl

theorem Feed.fill_eq_ok {f f' : Feed} {s : Slot} {edits : List Edit}
    (e : f.fill edits = .ok (s, f')) :
    s = f.handshake.active ∧
      (f.handshake.state f.handshake.active = .empty ∨
        f.handshake.state f.handshake.active = .filling) ∧
      f' = (f.setHandshake (f.handshake.setState f.handshake.active .filling)).edit
        f.handshake.active f.bufferBytes edits := by
  unfold fill at e
  split at e
  next t g hstart =>
    obtain ⟨rfl, hfillable, rfl⟩ := startFilling_eq_ok hstart
    cases e
    exact ⟨rfl, hfillable, rfl⟩
  next => cases e

namespace FeedBench

/-! ## 2. Notes -/

/-- What an observer of a feed has written down. -/
structure Notes where
  -- What each slot held when it was handed over last.
  handed : PerSlot (Option Bytes)
  -- The slot that was delivered last, and what it held when it was handed over.
  heard : Option (Slot × Bytes)

namespace Notes

def blank : Notes := ⟨.both none, none⟩

def handOver (x : Notes) (s : Slot) (page : Bytes) : Notes :=
  { x with handed := x.handed.set s (some page) }

/-- A step of a device delivered what was handed over in the lowest waiting slot, or nothing. -/
def deliver (x : Notes) (h : Handshake) : Option Delivery → Notes
  | none => x
  | some _ => { x with heard := h.firstReady?.bind fun s => (x.handed.get s).map fun b => (s, b) }

/-- The notes after a step, which the bench has answered with `r` and left as `b'`. -/
def note (x : Notes) (b : FeedBench) (s : Step) (r : Reply) (b' : FeedBench) : Notes :=
  match s, r with
  | .handOver, .slot t | .commit _, .slot t => x.handOver t (b'.feed.content t)
  | .consumer c, .consumer r => x.deliver b.feed.handshake (Delivery.of? c r)
  | _, _ => x

end Notes

/-- A bench that is being observed. -/
structure Watched where
  bench : FeedBench
  notes : Notes

namespace Watched

def start (f : Feed) : Watched := ⟨⟨f, []⟩, .blank⟩

def step (w : Watched) (s : Step) : Watched :=
  let (r, b) := w.bench.step s
  ⟨b, w.notes.note w.bench s r b⟩

def run (w : Watched) (steps : List Step) : Watched := steps.foldl step w

/-- Whether a slot is being filled or claimed by a live pull. -/
def Busy (w : Watched) (s : Slot) : Prop :=
  w.bench.feed.handshake.state s = .filling ∨ ∃ l ∈ w.bench.live, l.pull.claimed = some s

instance (w : Watched) (s : Slot) : Decidable (w.Busy s) :=
  inferInstanceAs (Decidable (_ ∨ ∃ l ∈ w.bench.live, l.pull.claimed = some s))

/-- What an underrun of that length shows: what was delivered last, as it was handed over, unless the
slot of it is busy or the feed falls back on silence. -/
def missed (w : Watched) (length : Nat) : Bytes :=
  match w.bench.feed.fallback, w.notes.heard with
  | .replay, some (s, page) => if w.Busy s then .zeros length else page.first length
  | .replay, none | .silence, _ => .zeros length

end Watched

/-! ## 3. What the notes say -/

/-- The notes are right about a feed of that fallback and with buffers of that size, whose slots have
so many claims. -/
structure Notes.Right (fallback : Fallback) (bytes : Nat) (x : Notes) (f : Feed)
    (claims : Slot → Nat) : Prop where
  fallback : f.fallback = fallback
  shaped : f.handshake.Shaped
  custody : ∀ s, claims s = if f.handshake.state s = .consumed then 1 else 0
  silence : f.silence = .zeros bytes
  content : ∀ s ∈ f.handshake.members, (f.content s).size = bytes
  -- A slot that waits holds what was handed over in it.
  waiting : ∀ s, f.handshake.state s = .ready → x.handed.get s = some (f.content s)
  -- The slot claimed last holds what was delivered last until it is filled again.
  echo : (f.handshake.state f.handshake.last = .empty ∨
      f.handshake.state f.handshake.last = .consumed) →
    f.content f.handshake.last = (x.heard.map (·.2)).getD (.zeros bytes)
  last : ∀ s page, x.heard = some (s, page) → f.handshake.last = s

namespace Notes.Right

variable {fallback : Fallback} {bytes n : Nat} {x : Notes} {f f' : Feed} {c : Slot → Nat} {s : Slot}

theorem bufferBytes (hx : x.Right fallback bytes f c) : f.bufferBytes = bytes := by
  rw [Buffers.bufferBytes, hx.silence, Bytes.size_zeros]

theorem start (double : Bool) (bytes : Nat) (format : Format) (fallback : Fallback) :
    blank.Right fallback bytes (Feed.ofBuffers (.zeroed double bytes) format fallback)
      fun _ => 0 := by
  -- a fresh feed is that of a stream that has just been opened
  have hsized := Line.sized_fresh double bytes format fallback none nofun
  have horderly := Line.orderly_fresh double bytes format fallback none
  have hbytes := Line.bufferBytes_fresh double bytes format fallback none
  refine ⟨rfl, horderly.shaped, horderly.custody, rfl, fun s hs => ?_, fun s hs => ?_,
    fun _ => rfl, nofun⟩
  · exact (hsized.content s hs).trans hbytes
  · have hempty := Handshake.state_initial double s
    exact absurd (hempty.symm.trans hs) (by decide)

theorem fill (hx : x.Right fallback bytes f c) {edits : List Edit}
    (e : f.fill edits = .ok (s, f')) : x.Right fallback bytes f' c := by
  obtain ⟨-, hfillable, rfl⟩ := Feed.fill_eq_ok e
  have hstate : ∀ t, (f.handshake.setState f.handshake.active .filling).state t =
      if t = f.handshake.active then .filling else f.handshake.state t :=
    fun t => Handshake.state_setState _ _ t _
  have hcontent : ∀ t, t ≠ f.handshake.active →
      ((f.setHandshake (f.handshake.setState f.handshake.active .filling)).edit
        f.handshake.active f.bufferBytes edits).content t = f.content t :=
    fun t ht => (Feed.content_edit _ _ _ _ _).trans (if_neg ht)
  constructor
  case fallback => exact hx.fallback
  case shaped => exact hx.shaped.setFilling
  case custody =>
    intro t
    show c t = if (f.handshake.setState _ .filling).state t = .consumed then 1 else 0
    rw [hx.custody, hstate]
    by_cases ht : t = f.handshake.active
    · rcases hfillable with h | h <;> simp [ht, h]
    · rw [if_neg ht]
  case silence => exact hx.silence
  case content =>
    intro t ht
    rw [Feed.size_content_edit]
    exact hx.content t ht
  case waiting =>
    intro t ht
    replace ht := (hstate t).symm.trans ht
    by_cases hactive : t = f.handshake.active
    · rw [if_pos hactive] at ht
      cases ht
    · rw [if_neg hactive] at ht
      rw [hcontent t hactive]
      exact hx.waiting t ht
  case echo =>
    intro hrest
    -- the slot claimed last is not the one being filled
    have hlast : f.handshake.last ≠ f.handshake.active := by
      intro hlast
      have hfilling := (hstate f.handshake.last).trans (if_pos hlast)
      rcases hrest with h | h <;> exact absurd (hfilling.symm.trans h) (by decide)
    have hsame := (hstate f.handshake.last).trans (if_neg hlast)
    refine (hcontent _ hlast).trans (hx.echo ?_)
    rw [← hsame]
    exact hrest
  case last => exact hx.last

theorem handOver (hx : x.Right fallback bytes f c) (e : f.handOver = .ok (s, f')) :
    (x.handOver s (f'.content s)).Right fallback bytes f' c := by
  obtain ⟨rfl, hfilling, rfl⟩ := Feed.handOver_eq_ok e
  have hstate := f.handshake.state_handed
  have hlast : f.handshake.handed.last = f.handshake.last := Handshake.last_handed _
  constructor
  case fallback => exact hx.fallback
  case shaped => exact hx.shaped.handed
  case custody =>
    intro t
    show c t = if f.handshake.handed.state t = .consumed then 1 else 0
    rw [hx.custody, hstate]
    by_cases ht : t = f.handshake.active
    · simp [ht, hfilling]
    · rw [if_neg ht]
  case silence => exact hx.silence
  case content =>
    intro t ht
    refine hx.content t ?_
    rwa [Feed.handshake_setHandshake,
      Line.members_setHandshake_eq (Handshake.double_handed _)] at ht
  case waiting =>
    intro t ht
    replace ht := (hstate t).symm.trans ht
    show (x.handed.set f.handshake.active (some (f.content f.handshake.active))).get t = _
    rw [PerSlot.get_set]
    by_cases hactive : t = f.handshake.active
    · rw [if_pos hactive, hactive]
      rfl
    · rw [if_neg hactive] at ht ⊢
      exact hx.waiting t ht
  case echo =>
    intro hrest
    replace hrest : f.handshake.handed.state f.handshake.handed.last = .empty ∨
      f.handshake.handed.state f.handshake.handed.last = .consumed := hrest
    show f.content f.handshake.handed.last = _
    rw [hlast, hstate] at hrest
    rw [hlast]
    -- the slot that waits now is another one
    split at hrest
    next => simp at hrest
    next => exact hx.echo hrest
  case last =>
    intro t page ht
    exact hlast.trans (hx.last t page ht)

theorem claimed (hx : x.Right fallback bytes f c) {y : Notes} (k : Counters)
    (hmem : s ∈ f.handshake.members) (hfree : f.handshake.state s ≠ .consumed)
    (hhanded : y.handed = x.handed)
    (hecho : f.content s = (y.heard.map (·.2)).getD (.zeros bytes))
    (hlast : ∀ t page, y.heard = some (t, page) → s = t) :
    y.Right fallback bytes { f.setHandshake (f.handshake.claimed s) with counters := k }
      (Line.claim c s) where
  fallback := hx.fallback
  shaped := hx.shaped.claimed hmem
  custody t := by
    show Line.claim c s t = if (f.handshake.claimed s).state t = .consumed then 1 else 0
    rw [Line.claim, Handshake.state_claimed]
    by_cases ht : t = s
    · rw [if_pos ht, if_pos ht, if_pos rfl, ht, hx.custody, if_neg hfree]
    · rw [if_neg ht, if_neg ht, hx.custody]
  silence := hx.silence
  content := hx.content
  waiting t ht := by
    rw [hhanded]
    exact hx.waiting t (Handshake.state_of_state_claimed (by decide) ht).2
  echo _ := hecho
  last := hlast

/-- A pull leaves the notes right, with its own claim among the others. -/
theorem pull (hx : x.Right fallback bytes f c) (n : Nat) :
    (x.deliver f.handshake
        (Delivery.of? (.pull n) ((f.pull n).2.view (f.pull n).1))).Right fallback bytes
      (f.pull n).2 (Line.claimOf c (f.pull n).1.claimed) := by
  by_cases hgrant : f.grant n = 0
  · rw [Feed.pull_of_nothing hgrant]
    exact hx
  · cases hfirst : f.handshake.firstReady? with
    | some s =>
      have hready := Handshake.ready_of_firstReady? hfirst
      have hhanded := hx.waiting s hready
      rw [Feed.pull_of_firstReady? hgrant hfirst]
      simp only [Feed.view, Delivery.of?, hgrant, if_false, deliver, hfirst, Option.bind_some,
        hhanded, Option.map_some]
      refine hx.claimed _ (hx.shaped.ready_mem hready) (by simp [hready]) rfl rfl ?_
      intro t page ht
      cases ht
      rfl
    | none =>
      have hnone := hx.shaped.none_ready hfirst
      by_cases hreplay : f.fallback = .replay ∧ f.handshake.state f.handshake.last = .empty
      · obtain ⟨hback, hempty⟩ := hreplay
        rw [Feed.pull_of_replay hgrant hnone hback hempty]
        exact hx.claimed _ hx.shaped.last_mem (by simp [hempty]) rfl (hx.echo (.inl hempty))
          hx.last
      · have hsilent := Feed.pull_of_silence hgrant hnone fun hback hempty =>
          hreplay ⟨hback, hempty⟩
        rw [hsilent]
        exact ⟨hx.fallback, hx.shaped, hx.custody, hx.silence, hx.content, hx.waiting, hx.echo,
          hx.last⟩

theorem drop (hx : x.Right fallback bytes f c) {p : Pull} {c' : Slot → Nat}
    (e : f.drop p = .ok f') (hclaims : c = Line.claimOf c' p.claimed) :
    x.Right fallback bytes f' c' := by
  obtain ⟨hp, rfl⟩ | ⟨s, hp, hconsumed, rfl⟩ := Feed.drop_eq_ok e
  · rw [hp] at hclaims
    rw [show c' = c from hclaims.symm]
    exact hx
  · rw [hp] at hclaims
    constructor
    case fallback => exact hx.fallback
    case shaped => exact hx.shaped.giveBack s
    case custody =>
      intro t
      have ht := hx.custody t
      show c' t = if (f.handshake.giveBack s).state t = .consumed then 1 else 0
      rw [hclaims, Line.claimOf, Line.claim] at ht
      rw [Handshake.state_giveBack]
      by_cases hs : t = s
      · rw [if_pos hs, hs, hconsumed, if_pos rfl] at ht
        rw [if_pos hs, if_neg (by decide), hs]
        omega
      · rwa [if_neg hs] at ht ⊢
    case silence => exact hx.silence
    case content => exact hx.content
    case waiting =>
      intro t ht
      exact hx.waiting t (Handshake.state_of_state_giveBack (by decide) ht)
    case echo =>
      intro hrest
      replace hrest : (f.handshake.giveBack s).state f.handshake.last = .empty ∨
        (f.handshake.giveBack s).state f.handshake.last = .consumed := hrest
      refine hx.echo ?_
      by_cases hs : f.handshake.last = s
      · rw [hs]
        exact .inr hconsumed
      · rwa [Handshake.state_giveBack, if_neg hs] at hrest
    case last => exact hx.last

end Notes.Right

end FeedBench

end Playout

import Playout.Proofs.Content
import Playout.Proofs.Opening
import Playout.Proofs.Producer

/-!
# What every run keeps

`Playback.Sound` says of a playback and the events that led to it that every feed, with its claims
and its ledger, is a line in order, and how the session's own records agree with the ledgers.  It
holds at the beginning and survives every action.
-/

namespace Playout

/-! ## 1. Live pulls -/

namespace LivePulls

variable {l : LivePulls} {x : LivePull} {name : String}

/-- How many live pulls of a feed claim a slot. -/
def claims (l : LivePulls) (k : Nat) (s : Slot) : Nat :=
  l.countP fun x => decide (x.feed = k ∧ x.pull.claimed = some s)

def names (l : LivePulls) : List String := l.map (·.name)

theorem claims_cons_self (x : LivePull) (l : LivePulls) :
    claims (x :: l) x.feed = Line.claimOf (l.claims x.feed) x.pull.claimed := by
  funext t
  rw [claims, List.countP_cons]
  cases hx : x.pull.claimed with
  | none => simp [Line.claimOf, claims]
  | some s =>
    by_cases ht : t = s
    · simp [Line.claimOf, Line.claim, claims, ht]
    · simp [Line.claimOf, Line.claim, claims, ht, Ne.symm ht]

theorem claims_cons_of_ne {k : Nat} (h : k ≠ x.feed) (l : LivePulls) :
    claims (x :: l) k = l.claims k := by
  funext t
  rw [claims, List.countP_cons, if_neg (by simp [Ne.symm h])]
  rfl

theorem named?_eq_some (h : l.named? name = some x) : x ∈ l ∧ x.name = name := by
  unfold named? at h
  exact ⟨List.mem_of_find?_eq_some h, by simpa using List.find?_some h⟩

-- With every name used once, a live pull is found by its name.
theorem named?_of_mem (hnames : l.names.Nodup) (hx : x ∈ l) : l.named? x.name = some x := by
  induction l with
  | nil => cases hx
  | cons y l ih =>
    obtain ⟨hy, hl⟩ := List.nodup_cons.mp hnames
    rcases List.mem_cons.mp hx with rfl | hx
    · simp [named?]
    · have hne : y.name ≠ x.name := by
        intro heq
        exact hy (List.mem_map.mpr ⟨x, hx, heq.symm⟩)
      have hrest := ih hl hx
      unfold named? at hrest ⊢
      rw [List.find?_cons_of_neg (by simpa using hne)]
      exact hrest

theorem named?_eq_none (h : l.named? name = none) : name ∉ l.names := by
  intro hmem
  obtain ⟨y, hy, hname⟩ := List.mem_map.mp hmem
  have hno := List.find?_eq_none.mp h y hy
  simp [hname] at hno

theorem without_eq_self (h : name ∉ l.names) : l.without name = l := by
  apply List.filter_eq_self.mpr
  intro y hy
  have hne : y.name ≠ name := by
    rintro rfl
    exact h (List.mem_map_of_mem hy)
  simpa using hne

-- Taking away a live pull takes away its claim and no other.
theorem claims_without (hnames : l.names.Nodup) (h : l.named? name = some x) (k : Nat) :
    l.claims k = claims (x :: l.without name) k := by
  induction l with
  | nil => cases h
  | cons y l ih =>
    obtain ⟨hy, hl⟩ := List.nodup_cons.mp hnames
    by_cases hname : y.name = name
    · have hxy : y = x := by simpa [named?, hname] using h
      have hgone : without (y :: l) name = without l name := by simp [without, hname]
      rw [hgone, without_eq_self (hname ▸ hy : name ∉ names l), hxy]
    · have hx : named? l name = some x := by simpa [named?, hname] using h
      have hrest : without (y :: l) name = y :: without l name := by simp [without, hname]
      funext s
      have hcount := congrFun (ih hl hx) s
      rw [hrest]
      simp only [claims, List.countP_cons] at hcount ⊢
      omega

theorem names_without (hnames : l.names.Nodup) : (l.without name).names.Nodup :=
  List.Nodup.sublist (List.Sublist.map _ List.filter_sublist) hnames

theorem mem_without (hx : x ∈ l) (hname : x.name ≠ name) : x ∈ l.without name :=
  List.mem_filter.mpr ⟨hx, by simpa using hname⟩

theorem mem_of_mem_without (h : x ∈ l.without name) : x ∈ l := (List.mem_filter.mp h).1

-- A slot that a live pull claims has a claim.
theorem claims_pos {s : Slot} (hx : x ∈ l) (hs : x.pull.claimed = some s) :
    0 < l.claims x.feed s := by
  rw [claims, List.countP_pos_iff]
  exact ⟨x, hx, by simp [hs]⟩

end LivePulls

/-! ## 2. The invariant -/

/-- Whether the first commit has handed over and not started yet. -/
def Producer.isLaunching : Producer → Bool
  | .launching _ => true
  | .free | .waiting _ => false

namespace Playback

variable {τ : Type} {tr es : List Event} {p p' : Playback τ}

def holds (p : Playback τ) (k : Nat) : Bool := p.session.stream.any fun st => decide (st.number = k)

/-- The line of feed `f`, which has number `k`. -/
def line (tr : List Event) (p : Playback τ) (k : Nat) (f : Feed) : Line where
  feed := f
  claims := p.live.claims k
  ledger := ledger k tr
  sealed := p.holds k && decide (p.producer = .waiting .commit)
  lent := if p.holds k then p.lent else none

/-- Every stream that has been opened has left a feed under its number, for good, and every live pull
is of one of them and has a name of its own. -/
structure Housed (p : Playback τ) : Prop where
  names : p.live.names.Nodup
  pulls : ∀ l ∈ p.live, l.feed < p.session.opens
  feeds : ∀ k, (p.feed? k).isSome = decide (k < p.session.opens)

/-- Every feed is a line in order, and the session agrees with the ledgers. -/
structure Sound (tr : List Event) (p : Playback τ) : Prop extends Housed p where
  lines : ∀ k f, p.feed? k = some f → (p.line tr k f).Inv
  blank : ∀ k, p.session.opens ≤ k → ledger k tr = .blank
  -- Every hand-over belongs to a commit that has returned, the one that is being launched apart.
  balance : ∀ k, (ledger k tr).handed.length =
    (ledger k tr).returned + if p.holds k && p.producer.isLaunching then 1 else 0
  widens : ∀ st, p.session.stream = some st →
    st.widens = (ledger st.number tr).doubled.isSome
  -- A stream is only opened as long as nothing has been handed over.
  started : ∀ st, p.session.stream = some st → ((ledger st.number tr).handed = [] ↔
    st.phase = .opened ∧ p.producer.isLaunching = false)
  launching : p.producer.isLaunching = true → ∀ st, p.session.stream = some st →
    st.phase = .opened
  -- Calls under way are calls on a stream that is not paused.
  busy : p.producer ≠ .free → ∃ st, p.session.stream = some st ∧ st.phase ≠ .paused
  lent_open : p.session.stream = none → p.lent = none

theorem sound_new (t : τ) (c : Settings) : Sound [] (new t c) where
  names := List.nodup_nil
  pulls l hl := by cases hl
  feeds k := rfl
  lines k f hf := by cases hf
  blank k _ := rfl
  balance k := rfl
  widens st hst := by cases hst
  started st hst := by cases hst
  launching h := by cases h
  busy h := absurd rfl h
  lent_open _ := rfl

namespace Housed

theorem numbers (h : Housed p) {k : Nat} {f : Feed} (hf : p.feed? k = some f) :
    k < p.session.opens := by
  have hk := h.feeds k
  rw [hf] at hk
  exact of_decide_eq_true hk.symm

theorem present (h : Housed p) {k : Nat} (hk : k < p.session.opens) : ∃ f, p.feed? k = some f :=
  Option.isSome_iff_exists.mp ((h.feeds k).trans (decide_eq_true hk))

theorem homes (h : Housed p) {l : LivePull} (hl : l ∈ p.live) : ∃ f, p.feed? l.feed = some f :=
  h.present (h.pulls l hl)

-- No pull can have come from a feed that is not there yet.
theorem claims_eq_zero (h : Housed p) {k : Nat} (hk : p.session.opens ≤ k) :
    p.live.claims k = fun _ => 0 := by
  funext s
  refine Nat.eq_zero_of_not_pos fun hpos => ?_
  obtain ⟨l, hl, hmatch⟩ := List.countP_pos_iff.mp hpos
  have hfeed : l.feed = k := (of_decide_eq_true hmatch).1
  have hlt := h.pulls l hl
  omega

-- What neither opens a stream nor pulls.
theorem of_same (h : Housed p) (hopens : p'.session.opens = p.session.opens)
    (hlive : p'.live = p.live) (hfeeds : ∀ k, (p'.feed? k).isSome = (p.feed? k).isSome) :
    Housed p' where
  names := hlive ▸ h.names
  pulls := by
    rw [hlive, hopens]
    exact h.pulls
  feeds k := by
    rw [hfeeds, hopens]
    exact h.feeds k

end Housed

/-! ## 3. Frames -/

theorem feed?_of_open {st : Stream} (hst : p.session.stream = some st) :
    p.feed? st.number = some st.feed := by
  simp [feed?, hst]

theorem feed?_of_ne {st : Stream} (hst : p.session.stream = some st) {k : Nat}
    (hk : k ≠ st.number) : p.feed? k = p.kept k := by
  simp [feed?, hst, Ne.symm hk]

theorem feed?_of_closed (hst : p.session.stream = none) (k : Nat) : p.feed? k = p.kept k := by
  simp [feed?, hst]

-- The feed of a stream that is closed stays where it was.
theorem feed?_of_closing {st : Stream} (hst : p.session.stream = some st)
    (hclosed : p'.session.stream = none) (hkept : p'.kept = (p.keep st.number st.feed).kept)
    (k : Nat) : p'.feed? k = p.feed? k := by
  rw [feed?_of_closed hclosed, hkept]
  by_cases hk : k = st.number
  · subst hk
    rw [feed?_of_open hst]
    exact if_pos rfl
  · rw [feed?_of_ne hst hk]
    exact if_neg hk

namespace Housed

-- A step of a device concerns one feed and the live pulls.
theorem of_feed (h : Housed p) {k : Nat} {f f' : Feed} {live : LivePulls}
    (hfeed : p.feed? k = some f) (hnames : live.names.Nodup)
    (hhomes : ∀ l ∈ live, l.feed = k ∨ l ∈ p.live) :
    Housed { p.setFeed k f' with live := live } := by
  refine ⟨hnames, fun l hl => ?_, fun j => ?_⟩
  · show l.feed < (p.setFeed k f').session.opens
    rw [opens_setFeed]
    rcases hhomes l hl with hk | hold
    · exact hk ▸ h.numbers hfeed
    · exact h.pulls l hold
  · have hold := h.feeds j
    show ((p.setFeed k f').feed? j).isSome = decide (j < (p.setFeed k f').session.opens)
    rw [feed?_setFeed, opens_setFeed]
    split
    next hj =>
      rw [hj, hfeed] at hold
      exact hj ▸ hold
    next => exact hold

-- A new stream has the next number.
theorem of_new (h : Housed p) (hclosed : p.session.stream = none) {st : Stream}
    (hst : p'.session.stream = some st) (hnumber : st.number = p.session.opens)
    (hopens : p'.session.opens = p.session.opens + 1) (hkept : p'.kept = p.kept)
    (hlive : p'.live = p.live) : Housed p' := by
  refine ⟨hlive ▸ h.names, fun l hl => ?_, fun k => ?_⟩
  · rw [hlive] at hl
    have hlt := h.pulls l hl
    omega
  · rw [hopens]
    by_cases hk : k = p.session.opens
    · rw [hk, ← hnumber, feed?_of_open hst, hnumber]
      exact (decide_eq_true (Nat.lt_succ_self _)).symm
    · rw [feed?_of_ne hst (hnumber ▸ hk), hkept, ← feed?_of_closed hclosed, h.feeds k]
      exact decide_eq_decide.mpr (by omega)

end Housed

theorem holds_of_open {st : Stream} (hst : p.session.stream = some st) (k : Nat) :
    p.holds k = decide (st.number = k) := by
  simp [holds, hst]

theorem holds_of_closed (hst : p.session.stream = none) (k : Nat) : p.holds k = false := by
  simp [holds, hst]

theorem holds_setFeed (p : Playback τ) (k : Nat) (f : Feed) (j : Nat) :
    (p.setFeed k f).holds j = p.holds j := by
  rw [holds, stream_setFeed, holds]
  cases p.session.stream with
  | none => rfl
  | some st =>
    simp only [Option.map_some, Option.any_some]
    split <;> rfl

-- The line of a feed whose stream is not open.
theorem line_of_not_holds {k : Nat} (hk : p.holds k = false) (f : Feed) :
    p.line tr k f = ⟨f, p.live.claims k, ledger k tr, false, none⟩ := by
  simp [line, hk]

-- The line of the open stream.
theorem line_of_open (tr : List Event) {st : Stream} (hst : p.session.stream = some st) (f : Feed) :
    p.line tr st.number f = ⟨f, p.live.claims st.number, ledger st.number tr,
      decide (p.producer = .waiting .commit), p.lent⟩ := by
  simp [line, holds_of_open hst]

namespace Sound

-- Unless one is being launched, all commits that handed over have returned.
theorem balance_settled (hs : Sound tr p) (hproducer : p.producer.isLaunching = false) (k : Nat) :
    (ledger k tr).handed.length = (ledger k tr).returned := by
  have h := hs.balance k
  rw [hproducer, Bool.and_false] at h
  exact h

-- Only the first commit finds a stream that has not been started.
theorem handed_eq_nil_iff (hs : Sound tr p) (hproducer : p.producer.isLaunching = false)
    {st : Stream} (hst : p.session.stream = some st) :
    (ledger st.number tr).handed = [] ↔ st.phase = .opened :=
  (hs.started st hst).trans ⟨And.left, fun h => ⟨h, hproducer⟩⟩

-- Events that no ledger notes, and changes of the transport and the settings.
theorem of_same (hs : Sound tr p) (hledger : ∀ k, ledger k (tr ++ es) = ledger k tr)
    (hstream : p'.session.stream = p.session.stream) (hopens : p'.session.opens = p.session.opens)
    (hkept : p'.kept = p.kept) (hlive : p'.live = p.live) (hproducer : p'.producer = p.producer)
    (hlent : p'.lent = p.lent) : Sound (tr ++ es) p' := by
  have hfeed : ∀ k, p'.feed? k = p.feed? k := by
    intro k
    rw [feed?, hstream, hkept, feed?]
  have hholds : ∀ k, p'.holds k = p.holds k := by
    intro k
    rw [holds, hstream, holds]
  constructor
  case toHoused => exact hs.toHoused.of_same hopens hlive fun k => by rw [hfeed]
  case lines =>
    intro k f hf
    rw [hfeed] at hf
    have hline : p'.line (tr ++ es) k f = p.line tr k f := by
      rw [line, hholds, hlive, hledger, hproducer, hlent, line]
    rw [hline]
    exact hs.lines k f hf
  case blank =>
    intro k hk
    rw [hopens] at hk
    rw [hledger]
    exact hs.blank k hk
  case balance =>
    intro k
    rw [hledger, hholds, hproducer]
    exact hs.balance k
  case widens =>
    intro st hst
    rw [hstream] at hst
    rw [hledger]
    exact hs.widens st hst
  case started =>
    intro st hst
    rw [hstream] at hst
    rw [hledger, hproducer]
    exact hs.started st hst
  case launching =>
    rw [hproducer, hstream]
    exact hs.launching
  case busy =>
    rw [hproducer, hstream]
    exact hs.busy
  case lent_open =>
    rw [hstream, hlent]
    exact hs.lent_open

-- A call on the open stream concerns no other feed.
theorem of_stream (hs : Sound tr p) {st st' : Stream} (hst : p.session.stream = some st)
    (hst' : p'.session.stream = some st') (hnumber : st'.number = st.number)
    (hopens : p'.session.opens = p.session.opens) (hkept : p'.kept = p.kept)
    (hlive : p'.live = p.live)
    (hother : ∀ k, k ≠ st.number → ledger k (tr ++ es) = ledger k tr)
    (hline : Line.Inv ⟨st'.feed, p.live.claims st.number, ledger st.number (tr ++ es),
      decide (p'.producer = .waiting .commit), p'.lent⟩)
    (hbalance : (ledger st.number (tr ++ es)).handed.length =
      (ledger st.number (tr ++ es)).returned + if p'.producer.isLaunching then 1 else 0)
    (hwidens : st'.widens = (ledger st.number (tr ++ es)).doubled.isSome)
    (hstarted : (ledger st.number (tr ++ es)).handed = [] ↔
      st'.phase = .opened ∧ p'.producer.isLaunching = false)
    (hlaunching : p'.producer.isLaunching = true → st'.phase = .opened)
    (hbusy : p'.producer ≠ .free → st'.phase ≠ .paused) : Sound (tr ++ es) p' := by
  have hself : p'.feed? st.number = some st'.feed := hnumber ▸ feed?_of_open hst'
  have hrest : ∀ k, k ≠ st.number → p'.feed? k = p.feed? k := by
    intro k hk
    rw [feed?_of_ne hst' (hnumber ▸ hk), feed?_of_ne hst hk, hkept]
  have hholds : ∀ k, p'.holds k = decide (st.number = k) := by
    intro k
    rw [holds_of_open hst', hnumber]
  constructor
  case toHoused =>
    refine hs.toHoused.of_same hopens hlive fun k => ?_
    by_cases hk : k = st.number
    · rw [hk, hself, feed?_of_open hst]
      rfl
    · rw [hrest k hk]
  case lines =>
    intro k f hf
    by_cases hk : k = st.number
    · -- the line that the call is about
      subst hk
      rw [hself] at hf
      cases hf
      have hopen := line_of_open (tr ++ es) hst' st'.feed
      rw [hnumber, hlive] at hopen
      rw [hopen]
      exact hline
    · -- any other one is what it was, with nobody to write on it
      have hno : decide (st.number = k) = false := by simp [Ne.symm hk]
      rw [hrest k hk] at hf
      have hinv := hs.lines k f hf
      rw [line_of_not_holds ((holds_of_open hst k).trans hno)] at hinv
      rw [line_of_not_holds ((hholds k).trans hno), hlive, hother k hk]
      exact hinv
  case blank =>
    intro k hk
    rw [hopens] at hk
    have hne : k ≠ st.number := by
      have hlt := hs.numbers (feed?_of_open hst)
      omega
    rw [hother k hne]
    exact hs.blank k hk
  case balance =>
    intro k
    by_cases hk : k = st.number
    · rw [hholds, hk]
      simpa using hbalance
    · have hold := hs.balance k
      rw [holds_of_open hst, decide_eq_false (Ne.symm hk)] at hold
      rw [hholds, decide_eq_false (Ne.symm hk), hother k hk]
      exact hold
  case widens =>
    intro u hu
    rw [hst'] at hu
    cases hu
    rw [hnumber]
    exact hwidens
  case started =>
    intro u hu
    rw [hst'] at hu
    cases hu
    rw [hnumber]
    exact hstarted
  case launching =>
    intro h u hu
    rw [hst'] at hu
    cases hu
    exact hlaunching h
  case busy =>
    intro h
    exact ⟨st', hst', hbusy h⟩
  case lent_open =>
    intro h
    rw [hst'] at h
    cases h

-- The same for a call after which the producer is free.
theorem of_call (hs : Sound tr p) {st st' : Stream} (hst : p.session.stream = some st)
    (hst' : p'.session.stream = some st') (hfree : p'.producer = .free)
    (hnumber : st'.number = st.number) (hopens : p'.session.opens = p.session.opens)
    (hkept : p'.kept = p.kept) (hlive : p'.live = p.live)
    (hother : ∀ k, k ≠ st.number → ledger k (tr ++ es) = ledger k tr)
    (hline : Line.Inv ⟨st'.feed, p.live.claims st.number, ledger st.number (tr ++ es), false,
      p'.lent⟩)
    (hbalance : (ledger st.number (tr ++ es)).handed.length =
      (ledger st.number (tr ++ es)).returned)
    (hwidens : st'.widens = (ledger st.number (tr ++ es)).doubled.isSome)
    (hstarted : (ledger st.number (tr ++ es)).handed = [] ↔ st'.phase = .opened) :
    Sound (tr ++ es) p' := by
  have hlaunch : p'.producer.isLaunching = false := by rw [hfree]; rfl
  refine hs.of_stream hst hst' hnumber hopens hkept hlive hother ?_ ?_ hwidens ?_ ?_ ?_
  · rw [hfree]
    exact hline
  · rw [hlaunch]
    exact hbalance
  · exact hstarted.trans ⟨fun h => ⟨h, hlaunch⟩, And.left⟩
  · intro h
    rw [hlaunch] at h
    cases h
  · intro h
    exact absurd hfree h

-- A step of a device concerns one feed and the live pulls.
theorem of_feed (hs : Sound tr p) {k : Nat} {f f' : Feed} {live : LivePulls} {d : Option Delivery}
    (hfeed : p.feed? k = some f) (hnames : live.names.Nodup)
    (hhomes : ∀ l ∈ live, l.feed = k ∨ l ∈ p.live)
    (hclaims : ∀ j, j ≠ k → live.claims j = p.live.claims j)
    (hledger : ledger k (tr ++ es) = (ledger k tr).take d)
    (hother : ∀ j, j ≠ k → ledger j (tr ++ es) = ledger j tr)
    (hline : Line.Inv { p.line tr k f with
      feed := f', claims := live.claims k, ledger := (ledger k tr).take d }) :
    Sound (tr ++ es) { p.setFeed k f' with live := live } := by
  have hfeeds : ∀ j, Playback.feed? { p.setFeed k f' with live := live } j =
      if j = k then some f' else p.feed? j := fun j => p.feed?_setFeed k j f'
  have hholds : ∀ j, Playback.holds { p.setFeed k f' with live := live } j = p.holds j :=
    p.holds_setFeed k f'
  have hproducer : (p.setFeed k f').producer = p.producer := p.producer_setFeed k f'
  have hstream := p.stream_setFeed k f'
  -- the entry of a delivery changes neither side of the hand-overs
  have hsame : ∀ j, (ledger j (tr ++ es)).handed = (ledger j tr).handed ∧
      (ledger j (tr ++ es)).returned = (ledger j tr).returned ∧
      (ledger j (tr ++ es)).doubled = (ledger j tr).doubled := by
    intro j
    by_cases hj : j = k
    · subst hj
      rw [hledger]
      cases d <;> exact ⟨rfl, rfl, rfl⟩
    · rw [hother j hj]
      exact ⟨rfl, rfl, rfl⟩
  -- the stream is the old one, its feed apart
  have hstreams : ∀ st', (p.setFeed k f').session.stream = some st' →
      ∃ st, p.session.stream = some st ∧ st'.number = st.number ∧ st'.widens = st.widens ∧
        st'.phase = st.phase := by
    intro st' hst'
    rw [hstream, Option.map_eq_some_iff] at hst'
    obtain ⟨st, hst, rfl⟩ := hst'
    refine ⟨st, hst, ?_⟩
    split <;> exact ⟨rfl, rfl, rfl⟩
  constructor
  case toHoused => exact hs.toHoused.of_feed hfeed hnames hhomes
  case lines =>
    intro j g hg
    rw [hfeeds] at hg
    by_cases hj : j = k
    · subst hj
      rw [if_pos rfl] at hg
      cases hg
      rw [line, hholds, hledger, hproducer, lent_setFeed]
      exact hline
    · rw [if_neg hj] at hg
      have hinv := hs.lines j g hg
      rw [line, ← hclaims j hj, ← hother j hj] at hinv
      rw [line, hholds, hproducer, lent_setFeed]
      exact hinv
  case blank =>
    intro j hj
    rw [opens_setFeed] at hj
    have hne : j ≠ k := by
      have hlt := hs.numbers hfeed
      omega
    rw [hother j hne]
    exact hs.blank j hj
  case balance =>
    intro j
    rw [(hsame j).1, (hsame j).2.1, hholds, hproducer]
    exact hs.balance j
  case widens =>
    intro st' hst'
    obtain ⟨st, hst, hnumber, hwidens, -⟩ := hstreams st' hst'
    rw [hwidens, hnumber, (hsame _).2.2]
    exact hs.widens st hst
  case started =>
    intro st' hst'
    obtain ⟨st, hst, hnumber, -, hphase⟩ := hstreams st' hst'
    rw [hphase, hnumber, (hsame _).1, hproducer]
    exact hs.started st hst
  case launching =>
    intro h st' hst'
    obtain ⟨st, hst, -, -, hphase⟩ := hstreams st' hst'
    rw [hphase]
    exact hs.launching (hproducer ▸ h) st hst
  case busy =>
    intro h
    obtain ⟨st, hst, hphase⟩ := hs.busy (hproducer ▸ h)
    refine ⟨if st.number = k then { st with feed := f' } else st, ?_, ?_⟩
    · show (p.setFeed k f').session.stream = _
      rw [hstream, hst]
      rfl
    · split <;> exact hphase
  case lent_open =>
    intro h
    replace h : (p.setFeed k f').session.stream = none := h
    rw [hstream, Option.map_eq_none_iff] at h
    exact (p.lent_setFeed k f').trans (hs.lent_open h)

-- A new stream brings a new line.
theorem of_new (hs : Sound tr p) (hfree : p.producer = .free) (hclosed : p.session.stream = none)
    {st : Stream} {doubled : Option Nat} (hst : p'.session.stream = some st)
    (hnumber : st.number = p.session.opens) (hphase : st.phase = .opened)
    (hopens : p'.session.opens = p.session.opens + 1) (hkept : p'.kept = p.kept)
    (hlive : p'.live = p.live) (hproducer : p'.producer = p.producer) (hlent : p'.lent = p.lent)
    (hledger : ledger p.session.opens (tr ++ es) = .fresh doubled)
    (hother : ∀ k, k ≠ p.session.opens → ledger k (tr ++ es) = ledger k tr)
    (hline : Line.Inv ⟨st.feed, fun _ => 0, .fresh doubled, false, none⟩)
    (hwidens : st.widens = doubled.isSome) : Sound (tr ++ es) p' := by
  have hlaunch : p'.producer.isLaunching = false := by rw [hproducer, hfree]; rfl
  have hself : p'.feed? p.session.opens = some st.feed := hnumber ▸ feed?_of_open hst
  have hrest : ∀ k, k ≠ p.session.opens → p'.feed? k = p.feed? k := by
    intro k hk
    rw [feed?_of_ne hst (hnumber ▸ hk), feed?_of_closed hclosed, hkept]
  constructor
  case toHoused => exact hs.toHoused.of_new hclosed hst hnumber hopens hkept hlive
  case lines =>
    intro k f hf
    by_cases hk : k = p.session.opens
    · rw [hk, hself] at hf
      cases hf
      have hopen := line_of_open (tr ++ es) hst st.feed
      rw [hnumber, hlive, hs.claims_eq_zero (Nat.le_refl _), hledger, hproducer, hfree, hlent,
        hs.lent_open hclosed] at hopen
      rw [hk, hopen]
      exact hline
    · rw [hrest k hk] at hf
      have hinv := hs.lines k f hf
      have hno : p'.holds k = false := by
        rw [holds_of_open hst, hnumber]
        exact decide_eq_false (Ne.symm hk)
      rw [line_of_not_holds (holds_of_closed hclosed k)] at hinv
      rw [line_of_not_holds hno, hlive, hother k hk]
      exact hinv
  case blank =>
    intro k hk
    rw [hopens] at hk
    rw [hother k (by omega)]
    exact hs.blank k (by omega)
  case balance =>
    intro k
    rw [hlaunch, Bool.and_false]
    by_cases hk : k = p.session.opens
    · rw [hk, hledger]
      rfl
    · rw [hother k hk]
      exact hs.balance_settled (hproducer ▸ hlaunch) k
  case widens =>
    intro u hu
    rw [hst] at hu
    cases hu
    rw [hnumber, hledger]
    exact hwidens
  case started =>
    intro u hu
    rw [hst] at hu
    cases hu
    rw [hnumber, hledger]
    exact ⟨fun _ => ⟨hphase, hlaunch⟩, fun _ => rfl⟩
  case launching =>
    intro h
    rw [hlaunch] at h
    cases h
  case busy =>
    intro h
    exact absurd (hproducer.trans hfree) h
  case lent_open =>
    intro h
    rw [hst] at h
    cases h

end Sound

end Playback

end Playout

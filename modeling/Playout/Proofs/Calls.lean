import Mathlib.Data.List.Forall2
import Playout.Transport

/-!
# The calls that a transport receives

A `Logged` transport writes down every call with its answer and is otherwise the transport inside.
One opening and what follows it up to the closing is a `Segment` of the log.  What segments have in
common is proved here of logs that are made of them, whoever made the calls.
-/

namespace Playout

/-! ## 1. Logs -/

/-- A call with its answer. -/
inductive Exchange where
  | create (bytes : Nat) (r : Except Refusal Handle)
  | register (h : Handle) (feed : FeedRef) (r : Except Refusal Unit)
  | setGain (h : Handle) (gain : Gain)
  | start (h : Handle) (rate : UInt32) (stereo : Bool) (r : Except Refusal Unit)
  | stop (h : Handle)
  | destroy (h : Handle)

namespace Exchange

def created? : Exchange → Option Handle
  | .create _ (.ok h) => some h
  | _ => none

def destroyed? : Exchange → Option Handle
  | .destroy h => some h
  | _ => none

/-- The handle that the call is about: the one it brings or the one it is given. -/
def handle? : Exchange → Option Handle
  | .create _ r => r.toOption
  | .register h _ _ => some h
  | .setGain h _ => some h
  | .start h _ _ _ => some h
  | .stop h => some h
  | .destroy h => some h

/-- The live handles after a call. -/
def after (live : List Handle) (x : Exchange) : List Handle :=
  match x.created?, x.destroyed? with
  | some h, _ => h :: live
  | none, some h => live.erase h
  | none, none => live

theorem handle?_of_destroyed? {x : Exchange} {h : Handle} (e : x.destroyed? = some h) :
    x.handle? = some h := by
  cases x with
  | destroy => exact e
  | _ => cases e

end Exchange

def created (log : List Exchange) : List Handle := log.filterMap Exchange.created?

def destroyed (log : List Exchange) : List Handle := log.filterMap Exchange.destroyed?

def liveAfter (log : List Exchange) : List Handle := log.foldl Exchange.after []

theorem liveAfter_append {xs : List Exchange} (h : liveAfter xs = []) (ys : List Exchange) :
    liveAfter (xs ++ ys) = liveAfter ys := by
  unfold liveAfter at h ⊢
  rw [List.foldl_append, h]

theorem liveAfter_concat (log : List Exchange) (x : Exchange) :
    liveAfter (log ++ [x]) = x.after (liveAfter log) := by
  unfold liveAfter
  rw [List.foldl_append, List.foldl_cons, List.foldl_nil]

/-- A log in which there is at every moment at most one live handle. -/
def OneAtATime (log : List Exchange) : Prop := ∀ calls, calls <+: log → (liveAfter calls).length ≤ 1

theorem oneAtATime_nil : OneAtATime [] := by
  intro calls h
  rw [List.prefix_nil.mp h]
  exact Nat.zero_le 1

theorem OneAtATime.concat {log : List Exchange} (h : OneAtATime log) {x : Exchange}
    (hx : (liveAfter (log ++ [x])).length ≤ 1) : OneAtATime (log ++ [x]) := by
  intro calls hcalls
  rcases List.prefix_concat_iff.mp hcalls with rfl | hbefore
  · exact hx
  · exact h calls hbefore

theorem OneAtATime.append {xs ys : List Exchange} (hx : OneAtATime xs) (hlive : liveAfter xs = [])
    (hy : OneAtATime ys) : OneAtATime (xs ++ ys) := by
  intro calls hcalls
  -- a moment of the first part, or one of the second, which begins with nothing live
  rcases List.prefix_or_prefix_of_prefix hcalls (List.prefix_append xs ys) with hin | hbeyond
  · exact hx calls hin
  · obtain ⟨rest, rfl⟩ := hbeyond
    rw [liveAfter_append hlive]
    exact hy rest ((List.prefix_append_right_inj xs).mp hcalls)

/-- No call of `y` is about the handle that `x` gives up. -/
def Exchange.Spares (x y : Exchange) : Prop := ∀ h, x.destroyed? = some h → y.handle? ≠ some h

/-! ## 2. A transport with a log -/

/-- A transport and the calls that it has received. -/
structure Logged (τ : Type) where
  inner : τ
  log : List Exchange

namespace Logged

variable {τ : Type}

def new (t : τ) : Logged τ := ⟨t, []⟩

/-- The transport after a call that has left `t` inside. -/
def note (x : Logged τ) (t : τ) (call : Exchange) : Logged τ := ⟨t, x.log ++ [call]⟩

variable [Transport τ]

instance : Transport (Logged τ) where
  capabilities x := Transport.capabilities x.inner
  create x bytes :=
    let (r, t) := Transport.create x.inner bytes
    (r, x.note t (.create bytes r))
  register x h feed :=
    let (r, t) := Transport.register x.inner h feed
    (r, x.note t (.register h feed r))
  setGain x h gain := x.note (Transport.setGain x.inner h gain) (.setGain h gain)
  start x h rate stereo :=
    let (r, t) := Transport.start x.inner h rate stereo
    (r, x.note t (.start h rate stereo r))
  stop x h := x.note (Transport.stop x.inner h) (.stop h)
  destroy x h := x.note (Transport.destroy x.inner h) (.destroy h)

variable {x y : Logged τ} {h : Handle}

theorem log_create {bytes : Nat} {r : Except Refusal Handle}
    (e : Transport.create x bytes = (r, y)) : y.log = x.log ++ [.create bytes r] := by
  cases e
  rfl

theorem log_register {feed : FeedRef} {r : Except Refusal Unit}
    (e : Transport.register x h feed = (r, y)) : y.log = x.log ++ [.register h feed r] := by
  cases e
  rfl

theorem log_start {rate : UInt32} {stereo : Bool} {r : Except Refusal Unit}
    (e : Transport.start x h rate stereo = (r, y)) :
    y.log = x.log ++ [.start h rate stereo r] := by
  cases e
  rfl

@[simp] theorem log_setGain (gain : Gain) :
    (Transport.setGain x h gain).log = x.log ++ [.setGain h gain] := rfl

@[simp] theorem log_stop : (Transport.stop x h).log = x.log ++ [.stop h] := rfl

@[simp] theorem log_destroy : (Transport.destroy x h).log = x.log ++ [.destroy h] := rfl

end Logged

/-! ## 3. Segments -/

/-- A start or a stop of a stream in this format, with whether the device pulls before and after. -/
inductive Turn (h : Handle) (f : Format) : Bool → Exchange → Bool → Prop where
  | started : Turn h f false (.start h f.frameRate f.layout.isStereo (.ok ())) true
  | refused (e : Refusal) :
      Turn h f false (.start h f.frameRate f.layout.isStereo (.error e)) false
  | stopped : Turn h f true (.stop h) false

/-- The calls about an open stream, with whether the device pulls after them. -/
inductive Begun (h : Handle) (feed : FeedRef) : Bool → List Exchange → Prop where
  | setUp (bytes : Nat) (gain : Gain) :
      Begun h feed false [.create bytes (.ok h), .register h feed (.ok ()), .setGain h gain]
  | turn {before now : Bool} {calls : List Exchange} {x : Exchange}
      (hbegun : Begun h feed before calls) (hturn : Turn h feed.format before x now) :
      Begun h feed now (calls ++ [x])

/-- All the calls that come of one opening, with what the opening answers: a feed, or why the
transport refused. -/
inductive Segment : Except OpeningError FeedRef → List Exchange → Prop where
  | notCreated (bytes : Nat) (e : Refusal) :
      Segment (.error (.ofRefusal e)) [.create bytes (.error e)]
  | notRegistered (bytes : Nat) (h : Handle) (feed : FeedRef) (e : Refusal) :
      Segment (.error (.ofRefusal e))
        [.create bytes (.ok h), .register h feed (.error e), .destroy h]
  | closed {h : Handle} {feed : FeedRef} {running : Bool} {calls : List Exchange}
      (hbegun : Begun h feed running calls) :
      Segment (.ok feed) (calls ++ [.stop h, .destroy h])

/-! ## 4. Logs made of segments -/

/-- Calls that bring one handle, are all about it and do not give it up. -/
structure Holding (h : Handle) (calls : List Exchange) : Prop where
  created : created calls = [h]
  destroyed : destroyed calls = []
  about : ∀ x ∈ calls, x.handle? = some h
  live : liveAfter calls = [h]
  oneAtATime : OneAtATime calls

namespace Holding

variable {h : Handle} {calls : List Exchange}

theorem create (h : Handle) (bytes : Nat) : Holding h [.create bytes (.ok h)] where
  created := rfl
  destroyed := rfl
  about x hx := by
    rw [List.mem_singleton.mp hx]
    rfl
  live := rfl
  oneAtATime := oneAtATime_nil.concat (Nat.le_refl 1)

-- One more call about the handle changes nothing.
theorem concat (hc : Holding h calls) {x : Exchange} (hcreated : x.created? = none)
    (hdestroyed : x.destroyed? = none) (hx : x.handle? = some h) : Holding h (calls ++ [x]) := by
  have hlive : liveAfter (calls ++ [x]) = [h] := by
    rw [liveAfter_concat, hc.live, Exchange.after, hcreated, hdestroyed]
  refine ⟨?_, ?_, ?_, hlive, hc.oneAtATime.concat ?_⟩
  · rw [Playout.created, List.filterMap_append, List.filterMap_cons_none hcreated]
    exact (List.append_nil _).trans hc.created
  · rw [Playout.destroyed, List.filterMap_append, List.filterMap_cons_none hdestroyed]
    exact (List.append_nil _).trans hc.destroyed
  · intro y hy
    rcases List.mem_append.mp hy with hy | hy
    · exact hc.about y hy
    · rw [List.mem_singleton.mp hy]
      exact hx
  · rw [hlive]
    exact Nat.le_refl 1

end Holding

theorem Begun.holding {h : Handle} {feed : FeedRef} {running : Bool} {calls : List Exchange}
    (hb : Begun h feed running calls) : Holding h calls := by
  induction hb with
  | setUp bytes gain =>
    have hregister := (Holding.create h bytes).concat (x := .register h feed (.ok ())) rfl rfl rfl
    exact hregister.concat (x := .setGain h gain) rfl rfl rfl
  | turn hbegun hturn ih => cases hturn <;> exact ih.concat rfl rfl rfl

/-- Calls after which nothing is left over. -/
structure Balanced (log : List Exchange) : Prop where
  -- What is created is destroyed.
  destroyed_eq : destroyed log = created log
  about : ∀ x ∈ log, ∀ h, x.handle? = some h → h ∈ created log
  settled : liveAfter log = []
  oneAtATime : OneAtATime log
  -- With fresh handles, no call is about a handle that has been given up.
  spares : (created log).Nodup → log.Pairwise Exchange.Spares

namespace Balanced

theorem nil : Balanced [] where
  destroyed_eq := rfl
  about x hx := by cases hx
  settled := rfl
  oneAtATime := oneAtATime_nil
  spares _ := List.Pairwise.nil

theorem append {xs ys : List Exchange} (hx : Balanced xs) (hy : Balanced ys) :
    Balanced (xs ++ ys) := by
  have hcreated : created (xs ++ ys) = created xs ++ created ys := List.filterMap_append
  have hdestroyed : destroyed (xs ++ ys) = destroyed xs ++ destroyed ys := List.filterMap_append
  refine ⟨?_, ?_, ?_, hx.oneAtATime.append hx.settled hy.oneAtATime, ?_⟩
  · rw [hcreated, hdestroyed, hx.destroyed_eq, hy.destroyed_eq]
  · intro z hz h hh
    rw [hcreated]
    rcases List.mem_append.mp hz with hz | hz
    · exact List.mem_append_left _ (hx.about z hz h hh)
    · exact List.mem_append_right _ (hy.about z hz h hh)
  · rw [liveAfter_append hx.settled, hy.settled]
  · intro hnodup
    rw [hcreated, List.nodup_append] at hnodup
    obtain ⟨hxs, hys, hdisjoint⟩ := hnodup
    rw [List.pairwise_append]
    refine ⟨hx.spares hxs, hy.spares hys, ?_⟩
    -- each part keeps to its own handles
    intro x hxmem y hymem h hgone hagain
    have hin := hx.about x hxmem h (Exchange.handle?_of_destroyed? hgone)
    exact hdisjoint h hin h (hy.about y hymem h hagain) rfl

-- A create that is refused leaves nothing.
theorem refused (bytes : Nat) (e : Refusal) : Balanced [.create bytes (.error e)] where
  destroyed_eq := rfl
  about x hx h hh := by
    rw [List.mem_singleton.mp hx] at hh
    cases hh
  settled := rfl
  oneAtATime := oneAtATime_nil.concat (Nat.zero_le 1)
  spares _ := List.pairwise_singleton _ _

end Balanced

-- Giving the handle up balances what came before.
theorem Holding.balanced {h : Handle} {calls : List Exchange} (hc : Holding h calls) :
    Balanced (calls ++ [.destroy h]) := by
  have hcreated : Playout.created (calls ++ [.destroy h]) = [h] := by
    rw [Playout.created, List.filterMap_append]
    exact (List.append_nil _).trans hc.created
  have hlive : liveAfter (calls ++ [.destroy h]) = [] := by
    rw [liveAfter_concat, hc.live]
    simp [Exchange.after, Exchange.created?, Exchange.destroyed?]
  -- only the last call gives a handle up, and no call follows it
  have hspares : ∀ x ∈ calls, ∀ y, Exchange.Spares x y := by
    intro x hx y g hg
    rw [List.filterMap_eq_nil_iff.mp hc.destroyed x hx] at hg
    cases hg
  refine ⟨?_, ?_, hlive, hc.oneAtATime.concat ?_, fun _ => ?_⟩
  · rw [hcreated, Playout.destroyed, List.filterMap_append]
    change Playout.destroyed calls ++ [h] = [h]
    rw [hc.destroyed]
    rfl
  · intro x hx g hg
    have hh : x.handle? = some h := by
      rcases List.mem_append.mp hx with hx | hx
      · exact hc.about x hx
      · rw [List.mem_singleton.mp hx]
        rfl
    rw [hh] at hg
    cases hg
    rw [hcreated]
    exact List.mem_singleton.mpr rfl
  · rw [hlive]
    exact Nat.zero_le 1
  · rw [List.pairwise_append]
    refine ⟨?_, List.pairwise_singleton _ _, fun x hx y _ => hspares x hx y⟩
    have hany : calls.Pairwise fun _ _ => True := List.pairwise_of_forall fun _ _ => trivial
    exact hany.imp_of_mem fun hx _ _ => hspares _ hx _

theorem Segment.balanced {r : Except OpeningError FeedRef} {calls : List Exchange}
    (hs : Segment r calls) : Balanced calls := by
  cases hs with
  | notCreated bytes e => exact .refused bytes e
  | notRegistered bytes h feed e =>
    have hregister := (Holding.create h bytes).concat (x := .register h feed (.error e)) rfl rfl rfl
    exact hregister.balanced
  | @closed h feed running calls hbegun =>
    have hstop := hbegun.holding.concat (x := .stop h) rfl rfl rfl
    have hsplit : calls ++ [.stop h, .destroy h] = calls ++ [.stop h] ++ [.destroy h] := by simp
    rw [hsplit]
    exact hstop.balanced

end Playout

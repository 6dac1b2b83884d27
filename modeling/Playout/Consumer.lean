import Playout.Feed

/-!
# Consumers

A device holds any number of pulls at once and drops them in any order.  `ConsumerStep` is one thing
a device does to a feed, and `LivePulls` the pulls that it holds, each under a name and with the
number of the feed it came from.
-/

namespace Playout

/-- A place that keeps feeds by number. -/
class FeedStore (σ : Type) where
  -- The feed with a number, if it is still there.
  feed? : σ → Nat → Option Feed
  -- The place with that feed replaced.
  setFeed : σ → Nat → Feed → σ

/-- A pull that has not been dropped. -/
structure LivePull where
  -- The name the script gave it.
  name : String
  -- The number of its feed.
  feed : Nat
  pull : Pull
deriving DecidableEq, Repr

/-- The pulls that have not been dropped. -/
abbrev LivePulls := List LivePull

namespace LivePulls

def named? (l : LivePulls) (name : String) : Option LivePull := l.find? (·.name == name)

def holds (l : LivePulls) (feed : Nat) : Bool := l.any (·.feed == feed)

/-- The pulls but the one of that name. -/
def without (l : LivePulls) (name : String) : LivePulls := l.filter (·.name != name)

end LivePulls

/-- One thing a device does. -/
inductive ConsumerStep where
  -- Pull, read and drop at once.
  | pull (requested : Nat)
  -- Pull and keep the pull under a name.
  | hold (requested : Nat) (name : String)
  -- Read a held pull again.
  | peek (name : String)
  -- Drop a held pull.
  | drop (name : String)
deriving DecidableEq, Repr

inductive ConsumerReply where
  -- The content of a pull.
  | audio (data : Bytes) (delivered : Nat) (underrun : Bool)
  | done
  -- No feed to pull from, or no such pull.
  | nothing
  -- A failed check.
  | fault (f : Fault)
deriving DecidableEq, Repr

/-- What a pull shows at this moment. -/
def Feed.view (f : Feed) (p : Pull) : ConsumerReply :=
  .audio (f.read p) p.delivered p.isUnderrun

namespace ConsumerStep

variable {σ : Type} [FeedStore σ]

/-- Does one step.  New pulls come from the feed with the number `source`. -/
def run (source : Option Nat) (place : σ) (live : LivePulls) :
    ConsumerStep → ConsumerReply × σ × LivePulls
  | .pull requested =>
    match lookUp source place with
    | none => (.nothing, place, live)
    | some (k, f) =>
      let (p, f) := f.pull requested
      match f.drop p with
      | .ok released => (f.view p, FeedStore.setFeed place k released, live)
      | .error d => (.fault (.defect d), FeedStore.setFeed place k f, live)
  | .hold requested name =>
    match live.named? name, lookUp source place with
    | none, some (k, f) =>
      let (p, f) := f.pull requested
      (f.view p, FeedStore.setFeed place k f, ⟨name, k, p⟩ :: live)
    | _, _ => (.nothing, place, live)
  | .peek name =>
    match find name place live with
    | none => (.nothing, place, live)
    | some (l, f) => (f.view l.pull, place, live)
  | .drop name =>
    match find name place live with
    | none => (.nothing, place, live)
    | some (l, f) =>
      match f.drop l.pull with
      | .ok released => (.done, FeedStore.setFeed place l.feed released, live.without name)
      | .error d => (.fault (.defect d), place, live.without name)
where
  -- The feed to pull from, with its number.
  lookUp (source : Option Nat) (place : σ) : Option (Nat × Feed) := do
    let k ← source
    let f ← FeedStore.feed? place k
    some (k, f)
  -- A held pull with its feed.
  find (name : String) (place : σ) (live : LivePulls) : Option (LivePull × Feed) := do
    let l ← live.named? name
    let f ← FeedStore.feed? place l.feed
    some (l, f)

end ConsumerStep

end Playout

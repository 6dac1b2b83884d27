import Playout.Consumer

/-!
# A bench for one feed

Runs producer and consumer steps on a feed without a session, in a given order, and shows after each
step what it answered and how the handshake stands.
-/

namespace Playout

namespace FeedBench

inductive Step where
  | consumer (step : ConsumerStep)
  -- Start filling the active slot and write into it.
  | fill (edits : List Edit)
  -- Hand the active slot over.
  | handOver
  -- Both at once.
  | commit (edits : List Edit)
  -- Say that the producer sleeps, or that it does no longer.  That changes no answer.
  | parked (on : Bool)
deriving DecidableEq, Repr

inductive Reply where
  | consumer (reply : ConsumerReply)
  -- The slot that was filled or handed over.
  | slot (s : Slot)
  -- The state that stopped the producer.
  | stopped (x : SlotState)
  | done
deriving DecidableEq, Repr

end FeedBench

/-- A feed and the pulls that are held from it. -/
structure FeedBench where
  feed : Feed
  live : LivePulls
deriving DecidableEq, Repr

/-- A feed alone is a place for feed number 0. -/
instance : FeedStore Feed where
  feed? f k := if k = 0 then some f else none
  setFeed f k g := if k = 0 then g else f

namespace FeedBench

/-- The bench after a producer's operation, if it was possible. -/
def produce (b : FeedBench) (r : Except SlotState (Slot × Feed)) : Reply × FeedBench :=
  match r with
  | .ok (s, feed) => (.slot s, { b with feed })
  | .error x => (.stopped x, b)

def step (b : FeedBench) : Step → Reply × FeedBench
  | .consumer c =>
    let (reply, feed, live) := c.run (some 0) b.feed b.live
    (.consumer reply, ⟨feed, live⟩)
  | .fill edits => b.produce (b.feed.fill edits)
  | .handOver => b.produce b.feed.handOver
  | .commit edits => b.produce (b.feed.commit edits)
  | .parked _ => (.done, b)

/-- Does all steps, and shows the bench after each. -/
def run (b : FeedBench) : List Step → List (Reply × FeedBench)
  | [] => []
  | s :: rest => b.step s :: (b.step s).2.run rest

end FeedBench

end Playout

import Playout.Capabilities

/-!
# Negotiation

Between the format a program asks for and the table of what a device takes, `Format.negotiate` picks
the format that will be played: the requested encoding if it can carry the request, else the first
one in order of preference that can.
-/

namespace Playout

/-- No encoding of the device can carry the request. -/
structure NoCommonFormat where
  requested : Format
deriving DecidableEq, Repr

def NoCommonFormat.message (u : NoCommonFormat) : String :=
  "unsupported audio format: " ++ u.requested.render

namespace Format

/-- The encodings to try for a request, in order: its own, then the others by preference. -/
def candidates (requested : Format) : List Encoding :=
  requested.encoding :: Encoding.preference.filter (· != requested.encoding)

/-- The format in which a device with this table plays the request with encoding `e`, if it can. -/
def playedAs? (requested : Format) (t : Capabilities) (e : Encoding) : Option Format := do
  let c ← t.get? e
  let layout ← c.layouts.resolve requested.layout e
  let rate := c.rates.resolve requested.frameRate
  if rate = 0 then none else some ⟨e, layout, rate⟩

/-- The format that will be played for a request, or the refusal.  A request for no frames per
second is always refused. -/
def negotiate (requested : Format) (t : Capabilities) : Except NoCommonFormat Format :=
  if requested.frameRate = 0 then .error ⟨requested⟩
  else match requested.candidates.findSome? (requested.playedAs? t) with
    | some f => .ok f
    | none => .error ⟨requested⟩

end Format

end Playout

import Playout.Session.Basic

/-!
# Opening and closing

Opening goes through negotiation, allocation and the transport's own set-up, in this order.  The
first stage that fails decides the error, whatever was built before is given up again, and the
session stays closed.
-/

namespace Playout

/-- The stall threshold of a stream: the configured one, or a few buffers' playing time. -/
def Settings.threshold? (c : Settings) (f : Format) : Option Duration :=
  match c.stallThreshold with
  | some d => some d
  | none => (f.playTime c.frameCount.toNat).times? stallBuffers

namespace Session

variable {τ : Type} [Transport τ]

/-- Whether a request in `requested` that is played as `played` has its mono samples duplicated. -/
def duplicates (requested played : Format) : Bool :=
  decide (requested.layout = .mono) && decide (played.layout = .stereo)

/-- Buffers for the settings of the session. -/
def allocateFor (s : Session τ) (mem : Allocator) (f : Format) :
    Except AllocationError Buffers :=
  let c := s.settings
  Buffers.allocate mem f c.frameCount.toNat c.doubleBuffered c.alignment.toNat

/-- The session with a stream over these buffers, which the transport knows by that handle. -/
def install (s : Session τ) (handle : Handle) (feed : Feed) (widens : Bool) (threshold : Duration) :
    Session τ :=
  { s with
    transport := Transport.setGain s.transport handle s.settings.gain
    stream := some ⟨s.opens, handle, feed, widens, threshold, 0, .opened⟩
    opens := s.opens + 1 }

/-- Negotiates a format, allocates buffers and sets up a stream.  Answers the format that the device
plays, or why there is no stream.  The request's encoding gives way to a configured one. -/
def openStream (s : Session τ) (mem : Allocator) (requested : Format) :
    Except Fault (Except OpeningError Format × Session τ) :=
  match s.stream with
  | some _ => .error (s.wrongState .openStream)
  | none =>
    let wanted := s.settings.override requested
    match wanted.negotiate (Transport.capabilities s.transport) with
    | .error u => .ok (.error (.noCommonFormat u), s)
    | .ok format =>
      match s.allocateFor mem format with
      | .error e => .ok (.error (.allocation e), s)
      | .ok buffers =>
        let feed := Feed.ofBuffers buffers format s.settings.fallback
        match Transport.create s.transport buffers.bufferBytes with
        | (.error e, t) => .ok (.error (.ofRefusal e), { s with transport := t })
        | (.ok handle, t) =>
          match Transport.register t handle ⟨s.opens, format⟩ with
          | (.error e, t) =>
            .ok (.error (.ofRefusal e), { s with transport := Transport.destroy t handle })
          | (.ok (), t) =>
            match s.settings.threshold? format with
            | none => .error (.defect .durationOverflow)
            | some threshold =>
              .ok (.ok format,
                { s with transport := t }.install handle feed (duplicates wanted format) threshold)

/-- Stops and gives up the stream, keeping its counters.  The feed itself is left as it is: the
device may still hold a pull.  Closing a closed session does nothing. -/
def close (s : Session τ) : Session τ :=
  match s.stream with
  | none => s
  | some st =>
    { s with
      transport := Transport.destroy (Transport.stop s.transport st.handle) st.handle
      stream := none
      last := st.reading }

end Session

end Playout

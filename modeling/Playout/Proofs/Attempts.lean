import Playout.Proofs.Calls
import Playout.Proofs.Opening
import Playout.Bench.Hardware

/-!
# Openings that fail

An opening goes through four stages, and the first one that fails decides what comes of it: the
error, the calls that the transport has received, and nothing else.  So an attempt leaves no trace
on the session, and after any number of them an opening goes as it would on a session that has just
been made.
-/

namespace Playout

/-! ## 1. The stage that fails -/

theorem OpeningError.ofRefusal_eq (e : Refusal) :
    ofRefusal e = if e = .noHandle then .allocation .noHandle else .setUp e := by
  cases e <;> rfl

namespace Session

variable {τ : Type}

/-- What the transport is asked for: the request, in the configured encoding if there is one. -/
def wanted (s : Session τ) (requested : Format) : Format :=
  { requested with encoding := s.settings.encoding.getD requested.encoding }

theorem override_eq_wanted (s : Session τ) (requested : Format) :
    s.settings.override requested = s.wanted requested := by
  unfold Settings.override wanted
  cases s.settings.encoding <;> rfl

variable [Transport τ]

-- The ends of an opening exclude each other.
theorem openStream_of_opening {τ : Type} [Transport τ] {s : Session τ} {mem : Allocator}
    {requested : Format} {r : Except OpeningError Format × Session τ} (hclosed : s.stream = none)
    (h : s.Opening mem requested r) : s.openStream mem requested = .ok r := by
  obtain ⟨t, settings, stream, last, opens⟩ := s
  obtain rfl : stream = none := hclosed
  unfold openStream
  cases h with
  | noFormat u hnegotiate => simp only [hnegotiate]
  | noMemory f e hnegotiate hallocate => simp only [hnegotiate, hallocate]
  | notCreated f b e t hnegotiate hallocate hcreate => simp only [hnegotiate, hallocate, hcreate]
  | notRegistered f b h e t t' hnegotiate hallocate hcreate hregister =>
    simp only [hnegotiate, hallocate, hcreate, hregister]
  | installed f b h t t' threshold hnegotiate hallocate hcreate hregister hthreshold =>
    simp only [hnegotiate, hallocate, hcreate, hregister, hthreshold]

/-- The first stage of an opening that fails, with the error, the transport that is left and the
calls that it has received. -/
inductive Failure (s : Session (Logged τ)) (mem : Allocator) (requested : Format) :
    OpeningError → Logged τ → List Exchange → Prop where
  -- No format suits both sides.
  | negotiation
      (hnegotiate : ∀ f,
        (s.wanted requested).negotiate (Transport.capabilities s.transport) ≠ .ok f) :
      Failure s mem requested (.noCommonFormat ⟨s.wanted requested⟩) s.transport []
  -- There is no memory.
  | allocation (f : Format) (e : AllocationError)
      (hnegotiate :
        (s.wanted requested).negotiate (Transport.capabilities s.transport) = .ok f)
      (hallocate : s.allocateFor mem f = .error e) :
      Failure s mem requested (.allocation e) s.transport []
  -- The transport creates no stream.
  | creation (f : Format) (b : Buffers) (e : Refusal) (t : Logged τ)
      (hnegotiate :
        (s.wanted requested).negotiate (Transport.capabilities s.transport) = .ok f)
      (hallocate : s.allocateFor mem f = .ok b)
      (hcreate : Transport.create s.transport b.bufferBytes = (.error e, t)) :
      Failure s mem requested (if e = .noHandle then .allocation .noHandle else .setUp e) t
        [.create b.bufferBytes (.error e)]
  -- The transport does not take the feed, and its stream is given up again.
  | registration (f : Format) (b : Buffers) (h : Handle) (e : Refusal) (t t' : Logged τ)
      (hnegotiate :
        (s.wanted requested).negotiate (Transport.capabilities s.transport) = .ok f)
      (hallocate : s.allocateFor mem f = .ok b)
      (hcreate : Transport.create s.transport b.bufferBytes = (.ok h, t))
      (hregister : Transport.register t h ⟨s.opens, f⟩ = (.error e, t')) :
      Failure s mem requested (if e = .noHandle then .allocation .noHandle else .setUp e)
        (Transport.destroy t' h)
        [.create b.bufferBytes (.ok h), .register h ⟨s.opens, f⟩ (.error e), .destroy h]

variable {s : Session (Logged τ)} {mem : Allocator} {requested : Format} {e : OpeningError}

theorem Failure.log {t : Logged τ} {calls : List Exchange}
    (h : s.Failure mem requested e t calls) : t.log = s.transport.log ++ calls := by
  cases h with
  | negotiation => exact (List.append_nil _).symm
  | allocation => exact (List.append_nil _).symm
  | creation f b e t _ _ hcreate => exact Logged.log_create hcreate
  | registration f b h e t t' _ _ hcreate hregister =>
    rw [Logged.log_destroy, Logged.log_register hregister, Logged.log_create hcreate]
    simp

/-- An opening fails exactly as its first failing stage does. -/
theorem openStream_eq_error_iff (hclosed : s.stream = none) {s' : Session (Logged τ)} :
    s.openStream mem requested = .ok (.error e, s') ↔
      ∃ t calls, s.Failure mem requested e t calls ∧ s' = { s with transport := t } := by
  constructor
  · intro hr
    obtain ⟨r, hopen, hend⟩ := openStream_of_closed hclosed mem requested
    rw [hr] at hopen
    cases hopen
    cases hend with
    | noFormat u hnegotiate =>
      rw [override_eq_wanted] at hnegotiate
      obtain ⟨rfl, -⟩ := Format.negotiate_eq_error_iff.mp hnegotiate
      refine ⟨_, _, .negotiation fun f hf => ?_, rfl⟩
      rw [hf] at hnegotiate
      cases hnegotiate
    | noMemory f e hnegotiate hallocate =>
      rw [override_eq_wanted] at hnegotiate
      exact ⟨_, _, .allocation f e hnegotiate hallocate, rfl⟩
    | notCreated f b e t hnegotiate hallocate hcreate =>
      rw [override_eq_wanted] at hnegotiate
      rw [OpeningError.ofRefusal_eq]
      exact ⟨_, _, .creation f b e t hnegotiate hallocate hcreate, rfl⟩
    | notRegistered f b h e t t' hnegotiate hallocate hcreate hregister =>
      rw [override_eq_wanted] at hnegotiate
      rw [OpeningError.ofRefusal_eq]
      exact ⟨_, _, .registration f b h e t t' hnegotiate hallocate hcreate hregister, rfl⟩
  · rintro ⟨t, calls, hfail, rfl⟩
    refine openStream_of_opening hclosed ?_
    cases hfail with
    | negotiation hnegotiate =>
      cases hr : (s.wanted requested).negotiate (Transport.capabilities s.transport) with
      | ok f => exact absurd hr (hnegotiate f)
      | error u =>
        obtain ⟨rfl, -⟩ := Format.negotiate_eq_error_iff.mp hr
        rw [← override_eq_wanted] at hr ⊢
        exact .noFormat _ hr
    | allocation f e hnegotiate hallocate =>
      rw [← override_eq_wanted] at hnegotiate
      exact .noMemory f e hnegotiate hallocate
    | creation f b e t hnegotiate hallocate hcreate =>
      rw [← override_eq_wanted] at hnegotiate
      rw [← OpeningError.ofRefusal_eq]
      exact .notCreated f b e t hnegotiate hallocate hcreate
    | registration f b h e t t' hnegotiate hallocate hcreate hregister =>
      rw [← override_eq_wanted] at hnegotiate
      rw [← OpeningError.ofRefusal_eq]
      exact .notRegistered f b h e t t' hnegotiate hallocate hcreate hregister

/-! ## 2. Any number of attempts -/

/-- What may happen to a session until an opening succeeds: openings that fail, other settings, and
whatever the device does by itself. -/
inductive Attempts (s : Session (Logged τ)) : Session (Logged τ) → Prop where
  | start : Attempts s s
  | failed {u v : Session (Logged τ)} (hu : Attempts s u) (mem : Allocator) (requested : Format)
      (e : OpeningError) (hfail : u.openStream mem requested = .ok (.error e, v)) : Attempts s v
  | configured {u : Session (Logged τ)} (hu : Attempts s u) (settings : Settings) :
      Attempts s (u.configure settings)
  | elapsed {u : Session (Logged τ)} (hu : Attempts s u) (t : τ) :
      Attempts s { u with transport := { u.transport with inner := t } }

-- Attempts change the transport and the settings, and nothing else.
theorem Attempts.eq {u : Session (Logged τ)} (hu : Attempts s u) (hclosed : s.stream = none) :
    u = { s with transport := u.transport, settings := u.settings } := by
  induction hu with
  | start => rfl
  | failed _ mem requested e hfail ih =>
    have hnone := congrArg Session.stream ih
    obtain ⟨t, calls, -, rfl⟩ := (openStream_eq_error_iff (hnone.trans hclosed)).mp hfail
    rw [ih]
  | configured _ settings ih =>
    rw [ih]
    rfl
  | elapsed _ t ih => rw [ih]

/-- A new session over the transport, with the settings of the old one.  It goes on counting the
streams: a transport tells feeds apart by their numbers, and it may still know the old ones. -/
def renewed (s : Session τ) : Session τ :=
  { Session.new s.transport s.settings with opens := s.opens }

-- Opening does not look at the counters of the stream closed last.
theorem Opening.withLast {τ : Type} [Transport τ] {s : Session τ} {mem : Allocator}
    {requested : Format} {r : Except OpeningError Format × Session τ}
    (h : s.Opening mem requested r) (last : Reading) :
    { s with last }.Opening mem requested (r.1, { r.2 with last }) := by
  cases h with
  | noFormat u hnegotiate => exact .noFormat u hnegotiate
  | noMemory f e hnegotiate hallocate => exact .noMemory f e hnegotiate hallocate
  | notCreated f b e t hnegotiate hallocate hcreate =>
    exact .notCreated f b e t hnegotiate hallocate hcreate
  | notRegistered f b h e t t' hnegotiate hallocate hcreate hregister =>
    exact .notRegistered f b h e t t' hnegotiate hallocate hcreate hregister
  | installed f b h t t' threshold hnegotiate hallocate hcreate hregister hthreshold =>
    exact .installed f b h t t' threshold hnegotiate hallocate hcreate hregister hthreshold

-- Nor do the counters move, whichever way it ends.
theorem Opening.last {τ : Type} [Transport τ] {s : Session τ} {mem : Allocator}
    {requested : Format} {r : Except OpeningError Format × Session τ}
    (h : s.Opening mem requested r) : r.2.last = s.last := by
  cases h <;> rfl

theorem Opening.stream_of_ok {τ : Type} [Transport τ] {s u : Session τ} {mem : Allocator}
    {requested f : Format} (h : s.Opening mem requested (.ok f, u)) : ∃ st, u.stream = some st := by
  cases h
  exact ⟨_, rfl⟩

theorem openStream_renewed (hclosed : s.stream = none) (mem : Allocator) (requested : Format) :
    ∃ r u v, s.openStream mem requested = .ok (r, u) ∧
      s.renewed.openStream mem requested = .ok (r, v) ∧ u = { v with last := s.last } := by
  obtain ⟨⟨r, u⟩, hopen, hend⟩ := openStream_of_closed hclosed mem requested
  have hrenewed : s.renewed = { s with last := .zero } := by
    rw [renewed, Session.new, ← hclosed]
  refine ⟨r, u, { u with last := .zero }, hopen, ?_, ?_⟩
  · rw [hrenewed]
    exact openStream_of_opening hclosed (hend.withLast .zero)
  · rw [← hend.last]

/-! ## 3. All or nothing -/

/-- Opening a closed session, whatever is asked for, whatever the settings and the memory manager
are, and whatever the transport does:

* it fails exactly as the first stage that fails, which decides the error, the transport that is left
  and the calls that it has received, and nothing else changes;
* where it fails the session stays closed, with the same settings and the same counters;
* where no stage fails it answers a format and the session is open;
* after any number of failed attempts the session is closed and the counters are the same, and an
  opening has the answer, the stream and the calls that it has on a new session over this transport
  with these settings; only the counters are those of before, until it succeeds. -/
theorem opening_all_or_nothing (hclosed : s.stream = none) (mem : Allocator)
    (requested : Format) :
    (∀ e s', s.openStream mem requested = .ok (.error e, s') ↔
      ∃ t calls, s.Failure mem requested e t calls ∧ s' = { s with transport := t } ∧
        t.log = s.transport.log ++ calls) ∧
    (∀ e s', s.openStream mem requested = .ok (.error e, s') →
      s'.state = .closed ∧ s'.settings = s.settings ∧ s'.reading = s.reading) ∧
    ((∀ e t calls, ¬ s.Failure mem requested e t calls) ↔
      ∃ f s', s.openStream mem requested = .ok (.ok f, s') ∧ s'.state = .opened) ∧
    (∀ u, s.Attempts u →
      u.state = .closed ∧ u.reading = s.reading ∧
      (s.opens = 0 → u.renewed = .new u.transport u.settings) ∧
      ∀ mem' requested', ∃ r v w, u.openStream mem' requested' = .ok (r, v) ∧
        u.renewed.openStream mem' requested' = .ok (r, w) ∧ v = { w with last := s.last } ∧
        ∀ f, r = .ok f → v.reading = w.reading) := by
  refine ⟨fun e s' => ?_, fun e s' hr => ?_, ?_, fun u hu => ?_⟩
  · rw [openStream_eq_error_iff hclosed]
    constructor
    · rintro ⟨t, calls, hfail, hs'⟩
      exact ⟨t, calls, hfail, hs', hfail.log⟩
    · rintro ⟨t, calls, hfail, hs', -⟩
      exact ⟨t, calls, hfail, hs'⟩
  · obtain ⟨t, calls, -, rfl⟩ := (openStream_eq_error_iff hclosed).mp hr
    refine ⟨?_, rfl, rfl⟩
    show Session.state { s with transport := t } = .closed
    rw [state]
    simp only [hclosed]
  · obtain ⟨⟨r, s'⟩, hopen, hend⟩ := openStream_of_closed hclosed mem requested
    constructor
    · intro hnone
      cases r with
      | error e =>
        obtain ⟨t, calls, hfail, -⟩ := (openStream_eq_error_iff hclosed).mp hopen
        exact absurd hfail (hnone e t calls)
      | ok f =>
        refine ⟨f, s', hopen, ?_⟩
        cases hend
        rfl
    · rintro ⟨f, s'', hok, -⟩ e t calls hfail
      have herror := (openStream_eq_error_iff hclosed).mpr ⟨t, calls, hfail, rfl⟩
      rw [hok] at herror
      cases herror
  · have hu' := hu.eq hclosed
    have hnone : u.stream = none := (congrArg Session.stream hu').trans hclosed
    have hlast : u.last = s.last := by rw [hu']
    have hopens : u.opens = s.opens := by rw [hu']
    refine ⟨?_, ?_, fun hzero => ?_, fun mem' requested' => ?_⟩
    · rw [state, hnone]
    · rw [reading, reading, hnone, hclosed]
      exact hlast
    · rw [renewed, hopens, hzero]
      rfl
    · obtain ⟨r, v, w, hv, hw, hsame⟩ := openStream_renewed hnone mem' requested'
      rw [hlast] at hsame
      refine ⟨r, v, w, hv, hw, hsame, ?_⟩
      rintro f rfl
      -- once there is a stream, the counters are its own
      obtain ⟨r, hopen, hend⟩ := openStream_of_closed hnone mem' requested'
      rw [hv] at hopen
      cases hopen
      obtain ⟨st, hst⟩ := hend.stream_of_ok
      have hst' : w.stream = some st := by rw [← hst, hsame]
      rw [reading, reading, hst, hst']

/-- A device that has no handle left when the feed is registered: the stream is given up again, and
after the failed attempt an opening goes as on a new session. -/
theorem opening_without_handles :
    let device : Hardware.Manual := ⟨.linear, 4, true⟩
    let s := Session.new (Logged.new (Hardware.new (.manual device) ⟨none, some .noHandle, none⟩))
      { Settings.standard with frameCount := 4 }
    let requested : Format := ⟨.pcm8, .mono, 8000⟩
    s.stream = none ∧
      ∃ s', s.openStream .machine requested = .ok (.error (.allocation .noHandle), s') ∧
        s'.transport.log = [.create 4 (.ok ⟨4⟩),
          .register ⟨4⟩ ⟨0, requested⟩ (.error .noHandle), .destroy ⟨4⟩] ∧
        s'.state = .closed ∧ s'.renewed = .new s'.transport s'.settings := by
  intro device s requested
  have hall := opening_all_or_nothing (s := s) rfl .machine requested
  have hnegotiate : (s.wanted requested).negotiate (Transport.capabilities s.transport) =
      .ok requested := by decide +kernel
  have hallocate : s.allocateFor .machine requested = .ok (.zeroed true 4) := by decide +kernel
  have hfail : s.Failure .machine requested (.allocation .noHandle) _
      [.create 4 (.ok ⟨4⟩), .register ⟨4⟩ ⟨0, requested⟩ (.error .noHandle), .destroy ⟨4⟩] :=
    .registration requested _ ⟨4⟩ .noHandle _ _ hnegotiate hallocate rfl rfl
  have hopen := (hall.1 _ _).mpr ⟨_, _, hfail, rfl, hfail.log⟩
  have hattempt := hall.2.2.2 _ (.failed .start .machine requested _ hopen)
  exact ⟨rfl, _, hopen, hfail.log, hattempt.1, hattempt.2.2.1 rfl⟩

end Session

end Playout

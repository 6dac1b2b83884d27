import Playout.Proofs.Epoch

/-!
# The same request on other tables

How the format that is played depends on what a device takes.  Only what comes earlier in the order
of trials matters: another entry is taken in its place only if it is tried before, and one that was
not taken can go.  And what has been agreed on once is agreed on again, as it is, wherever its own
encoding is taken in the same way.
-/

namespace Playout

namespace Format

variable {r f : Format} {t t' : Capabilities} {e e' : Encoding}

/-! ## 1. The order of trials -/

/-- For this request the one encoding is tried before the other. -/
def Precedes (r : Format) (e e' : Encoding) : Prop :=
  r.candidates.idxOf e < r.candidates.idxOf e'

instance (r : Format) (e e' : Encoding) : Decidable (r.Precedes e e') :=
  inferInstanceAs (Decidable (_ < _))

theorem Precedes.trans {e'' : Encoding} (h : r.Precedes e e') (h' : r.Precedes e' e'') :
    r.Precedes e e'' :=
  Nat.lt_trans h h'

theorem Precedes.ne (h : r.Precedes e e') : e ≠ e' := by
  rintro rfl
  exact Nat.lt_irrefl _ h

-- Nothing is tried before the encoding that was asked for.
theorem not_precedes_own (r : Format) (e : Encoding) : ¬ r.Precedes e r.encoding := by
  unfold Precedes candidates
  rw [List.idxOf_cons_self]
  exact Nat.not_lt_zero _

/-- The format that is played is the first one that can be. -/
theorem negotiate_eq_ok_iff_first : r.negotiate t = .ok f ↔
    r.frameRate ≠ 0 ∧ r.playedAs? t f.encoding = some f ∧
      ∀ e, r.Precedes e f.encoding → ¬ r.Acceptable t e := by
  rw [negotiate_eq_ok_iff, List.findSome?_eq_some_iff]
  refine and_congr_right fun _ => ?_
  constructor
  · rintro ⟨before, e, after, hlist, hplayed, hbefore⟩
    obtain rfl := encoding_of_playedAs? hplayed
    refine ⟨hplayed, fun e hfirst => playedAs?_eq_none.mp (hbefore e ?_)⟩
    -- what is not among those before has no place before
    refine Decidable.byContradiction fun hnot => ?_
    have hself : f.encoding ∉ before := fun hmem => by
      rw [hbefore _ hmem] at hplayed
      cases hplayed
    rw [Precedes, hlist, List.idxOf_append_of_notMem hnot, List.idxOf_append_of_notMem hself,
      List.idxOf_cons_self] at hfirst
    omega
  · rintro ⟨hplayed, hfirst⟩
    obtain ⟨before, after, hlist, hself⟩ :=
      List.eq_append_cons_of_mem (r.mem_candidates f.encoding)
    refine ⟨before, _, after, hlist, hplayed, fun e he => playedAs?_eq_none.mpr (hfirst e ?_)⟩
    rw [Precedes, hlist, List.idxOf_append_of_mem he, List.idxOf_append_of_notMem hself]
    exact Nat.lt_of_lt_of_le (List.idxOf_lt_length_of_mem he) (Nat.le_add_right _ _)

/-! ## 2. One entry at a time -/

theorem playedAs?_congr (h : t'.get? e = t.get? e) : r.playedAs? t' e = r.playedAs? t e := by
  rw [playedAs?, h, playedAs?]

theorem acceptable_congr (h : t'.get? e = t.get? e) : r.Acceptable t' e ↔ r.Acceptable t e := by
  rw [Acceptable, h, Acceptable]

theorem not_acceptable_of_get? (h : t.get? e = none) : ¬ r.Acceptable t e := by
  rintro ⟨c, hc, -⟩
  rw [h] at hc
  cases hc

-- As long as nothing that is tried before becomes acceptable, the same format is played.
theorem negotiate_of_same (h : r.negotiate t = .ok f)
    (hself : t'.get? f.encoding = t.get? f.encoding)
    (hbefore : ∀ e, r.Precedes e f.encoding → t'.get? e = t.get? e ∨ ¬ r.Acceptable t' e) :
    r.negotiate t' = .ok f := by
  obtain ⟨hrate, hplayed, hfirst⟩ := negotiate_eq_ok_iff_first.mp h
  refine negotiate_eq_ok_iff_first.mpr ⟨hrate, ?_, fun e he => ?_⟩
  · rw [playedAs?_congr hself, hplayed]
  · rcases hbefore e he with hsame | hno
    · rw [acceptable_congr hsame]
      exact hfirst e he
    · exact hno

-- One more encoding that can be played, and is tried earlier.
theorem negotiate_insert_of_precedes {c : Capability} (h : r.negotiate t = .ok f)
    (hprecedes : r.Precedes e f.encoding) (hacceptable : r.Acceptable (t.insert e c) e) :
    ∃ g, r.negotiate (t.insert e c) = .ok g ∧ g.encoding = e := by
  obtain ⟨hrate, -, hfirst⟩ := negotiate_eq_ok_iff_first.mp h
  obtain ⟨g, hplayed⟩ := acceptable_iff.mp hacceptable
  obtain rfl := encoding_of_playedAs? hplayed
  refine ⟨g, negotiate_eq_ok_iff_first.mpr ⟨hrate, hplayed, fun x hx => ?_⟩, rfl⟩
  rw [acceptable_congr (t.get?_insert_of_ne c hx.ne)]
  exact hfirst x (hx.trans hprecedes)

/-- For every request and every table:

* an entry for an encoding that could not be used before changes the format only to one in this
  encoding, exactly if it can be used now and is tried earlier than that of the old format;
* without an encoding that is not the one played, the same format is played;
* where no format is found, none is found with an entry less. -/
theorem negotiate_monotone (r : Format) (t : Capabilities) (e : Encoding) :
    (∀ f c, r.negotiate t = .ok f → ¬ r.Acceptable t e →
      ∃ g, r.negotiate (t.insert e c) = .ok g ∧ (g = f ∨ g.encoding = e) ∧
        (g.encoding = e ↔ r.Precedes e f.encoding ∧ r.Acceptable (t.insert e c) e)) ∧
    (∀ f, r.negotiate t = .ok f → e ≠ f.encoding → r.negotiate (t.erase e) = .ok f) ∧
    (∀ u, r.negotiate t = .error u → r.negotiate (t.erase e) = .error u) := by
  refine ⟨fun f c h hnew => ?_, fun f h hne => ?_, fun u h => ?_⟩
  · have hne : f.encoding ≠ e := by
      rintro rfl
      exact hnew (acceptable_iff.mpr ⟨f, (negotiate_eq_ok_iff_first.mp h).2.1⟩)
    by_cases htaken : r.Precedes e f.encoding ∧ r.Acceptable (t.insert e c) e
    · obtain ⟨g, hg, he⟩ := negotiate_insert_of_precedes h htaken.1 htaken.2
      exact ⟨g, hg, .inr he, iff_of_true he htaken⟩
    · refine ⟨f, negotiate_of_same h (t.get?_insert_of_ne c hne) fun x hx => ?_, .inl rfl,
        iff_of_false hne htaken⟩
      by_cases hxe : x = e
      · subst hxe
        exact .inr fun hyes => htaken ⟨hx, hyes⟩
      · exact .inl (t.get?_insert_of_ne c hxe)
  · refine negotiate_of_same h (t.get?_erase_of_ne hne.symm) fun x _ => ?_
    by_cases hxe : x = e
    · subst hxe
      exact .inr (not_acceptable_of_get? (t.get?_erase_self x))
    · exact .inl (t.get?_erase_of_ne hxe)
  · obtain ⟨rfl, hnone⟩ := negotiate_eq_error_iff.mp h
    refine negotiate_eq_error_iff.mpr ⟨rfl, hnone.imp_right fun hall x => ?_⟩
    by_cases hxe : x = e
    · subst hxe
      exact not_acceptable_of_get? (t.get?_erase_self x)
    · rw [acceptable_congr (t.get?_erase_of_ne hxe)]
      exact hall x

/-- A request in companded samples to a device that takes eight-bit samples only.  Once it takes
those of sixteen bits it plays these, which come earlier; it does not matter whether it takes
companded stereo. -/
theorem negotiate_with_more_encodings :
    let r : Format := ⟨.adpcm4, .mono, 8000⟩
    let t : Capabilities := { pcm8 := some .unrestricted, adpcm4 := some ⟨.stereo, .any⟩ }
    let f : Format := ⟨.pcm8, .mono, 8000⟩
    r.negotiate t = .ok f ∧ ¬ r.Acceptable t .pcm16 ∧
      (∃ g, r.negotiate (t.insert .pcm16 .unrestricted) = .ok g ∧ g.encoding = .pcm16) ∧
      r.negotiate (t.erase .adpcm4) = .ok f ∧
      r.negotiate .empty = .error ⟨r⟩ ∧
      r.negotiate (Capabilities.empty.erase .pcm8) = .error ⟨r⟩ := by
  intro r t f
  have hplayed : r.negotiate t = .ok f := by decide +kernel
  have hnew : ¬ r.Acceptable t .pcm16 := not_acceptable_of_get? rfl
  have hnone : r.negotiate .empty = .error ⟨r⟩ := by decide +kernel
  have hacceptable : r.Acceptable (t.insert .pcm16 .unrestricted) .pcm16 :=
    ⟨.unrestricted, rfl, ⟨.mono, rfl⟩, by decide⟩
  obtain ⟨g, hg, -, hencoding⟩ :=
    (negotiate_monotone r t .pcm16).1 f .unrestricted hplayed hnew
  have hless := (negotiate_monotone r t .adpcm4).2.1 f hplayed (by decide)
  have hstill := (negotiate_monotone r .empty .pcm8).2.2 _ hnone
  exact ⟨hplayed, hnew, ⟨g, hg, hencoding.mpr ⟨by decide, hacceptable⟩⟩, hless, hnone, hstill⟩

end Format

/-! ## 3. What has been agreed on -/

-- A layout that is played is played as it is.
theorem Layouts.resolve_of_resolve {s : Layouts} {c d : Layout} {e : Encoding}
    (h : s.resolve c e = some d) : s.resolve d e = some d := by
  cases s <;> cases c <;> cases e <;> cases h <;> rfl

-- So is a rate, also one of a range with crossed bounds.
theorem Rates.resolve_resolve (s : Rates) (requested : UInt32) :
    s.resolve (s.resolve requested) = s.resolve requested := by
  cases s with
  | any => rfl
  | fixed rate => rfl
  | range lo hi =>
    show clampRate lo hi (clampRate lo hi requested) = clampRate lo hi requested
    rw [← UInt32.toNat_inj, toNat_clampRate lo hi (clampRate lo hi requested), toNat_clampRate]
    omega

namespace Format

variable {r f : Format} {t t' : Capabilities}

-- A request that can be played as it is.
theorem negotiate_of_playedAs? (h : f.playedAs? t f.encoding = some f) : f.negotiate t = .ok f := by
  have hrate := (playedAs?_eq_some.mp h).2
  obtain ⟨c, -, -, -, hpos⟩ := hrate
  exact negotiate_eq_ok_iff_first.mpr ⟨hpos, h, fun e he => absurd he (f.not_precedes_own e)⟩

theorem playedAs?_of_negotiate (h : r.negotiate t = .ok f) :
    f.playedAs? t f.encoding = some f := by
  obtain ⟨-, hplayed, -⟩ := negotiate_eq_ok_iff_first.mp h
  obtain ⟨-, c, hc, hlayout, hrate, hpos⟩ := playedAs?_eq_some.mp hplayed
  refine playedAs?_eq_some.mpr ⟨rfl, c, hc, Layouts.resolve_of_resolve hlayout, ?_, hpos⟩
  rw [← hrate, Rates.resolve_resolve]

/-- What has been agreed on with one table is what is agreed on with another one, if both take its
encoding in the same way. -/
theorem negotiate_negotiated (h : r.negotiate t = .ok f)
    (hsame : t'.get? f.encoding = t.get? f.encoding) : f.negotiate t' = .ok f := by
  refine negotiate_of_playedAs? ?_
  rw [playedAs?_congr hsame]
  exact playedAs?_of_negotiate h

theorem not_duplicates_self (f : Format) : Session.duplicates f f = false := by
  rw [← Bool.not_eq_true, duplicates_iff]
  rintro ⟨hmono, hstereo⟩
  rw [hmono] at hstereo
  cases hstereo

end Format

/-! ## 4. Opening once more -/

namespace Playback

variable {τ : Type} [Transport τ] {p : Playback τ} {f : Format}

/-- What comes of an opening for a format that the device plays as it is: it does not fail for want
of a common format, and a stream plays this format, duplicates nothing, and stays so until it is
closed. -/
structure Plain (f : Format) (r : List Event × Playback τ) : Prop where
  agreed : ∀ u, .notOpened (.noCommonFormat u) ∉ r.1
  opened : ∀ k g w, .opened k g w ∈ r.1 → g = f ∧ w = false ∧
    ∀ ms, .closed ∉ (r.2.play ms).1 →
      ∃ st, (r.2.play ms).2.session.stream = some st ∧ st.format = f ∧ st.widens = false

theorem plain_of_negotiate (hfree : p.producer = .free) (hclosed : p.session.stream = none)
    (hagreed : (p.session.settings.override f).negotiate
      (Transport.capabilities p.session.transport) = .ok f)
    (hplain : Session.duplicates (p.session.settings.override f) f = false) (mem : Allocator) :
    Plain f (p.step (.command (.openStream mem f))) := by
  rcases step_openStream hfree hclosed mem f with ⟨e, s, hend, hstep⟩ | ⟨g, s, hend, hstep⟩
  · rw [hstep]
    refine ⟨fun u hmem => ?_, fun k g w hmem => ?_⟩
    · cases List.mem_singleton.mp hmem
      -- a refusal of the transport has other names
      generalize hu : OpeningError.noCommonFormat u = e at hend
      cases hend with
      | noFormat u' hnone =>
        rw [hagreed] at hnone
        cases hnone
      | noMemory => cases hu
      | notCreated _ _ e | notRegistered _ _ _ e => cases e <;> cases hu
    · cases List.mem_singleton.mp hmem
  · rw [hstep]
    cases hend with
    | installed g b handle t t' threshold hnegotiate =>
      obtain rfl : f = g := Except.ok.inj (hagreed.symm.trans hnegotiate)
      refine ⟨fun u hmem => ?_, fun k g w hmem => ?_⟩
      · cases List.mem_singleton.mp hmem
      · cases List.mem_singleton.mp hmem
        refine ⟨rfl, hplain, fun ms hes => ?_⟩
        obtain ⟨⟨st, hst, hlasting⟩, -⟩ := Endures.play rfl ms hes
        exact ⟨st, hst, hlasting.format, hlasting.widens.trans hplain⟩

/-- What has been negotiated once stays.  For every request and all tables: the format that is
played is negotiated as it is with every table that takes its encoding in the same way.

So it is for sessions.  Let an opening have answered a format, on any transport and with any
settings.  A closed session that is asked for this format, over any transport that takes its encoding
in the same way and with no encoding configured, negotiates this format and never duplicates
mono. -/
theorem reopening_keeps_format :
    (∀ (r f : Format) (t t' : Capabilities), r.negotiate t = .ok f →
      t'.get? f.encoding = t.get? f.encoding → f.negotiate t' = .ok f) ∧
    ∀ {σ τ : Type} [Transport σ] [Transport τ] (p : Playback σ) (q : Playback τ)
      (mem mem' : Allocator) (requested f : Format) (k : Nat) (w : Bool),
      let t := Transport.capabilities p.session.transport
      let t' := Transport.capabilities q.session.transport
      (p.step (.command (.openStream mem requested))).1 = [.opened k f w] →
      q.producer = .free → q.session.stream = none → q.session.settings.encoding = none →
      t'.get? f.encoding = t.get? f.encoding →
      (q.session.settings.override f).negotiate t' = .ok f ∧
        Plain f (q.step (.command (.openStream mem' f))) := by
  refine ⟨fun r f t t' h hsame => Format.negotiate_negotiated h hsame, ?_⟩
  intro σ τ _ _ p q mem mem' requested f k w t t' hopen hfree hclosed hown hsame
  obtain ⟨s, hend, -⟩ := opening_of_opened hopen
  have hwanted : q.session.settings.override f = f := by rw [Settings.override, hown]
  have hagreed : (q.session.settings.override f).negotiate t' = .ok f := by
    rw [hwanted]
    cases hend with
    | installed f b handle u u' threshold hnegotiate =>
      exact Format.negotiate_negotiated hnegotiate hsame
  have hplain : Session.duplicates (q.session.settings.override f) f = false := by
    rw [hwanted]
    exact f.not_duplicates_self
  exact ⟨hagreed, plain_of_negotiate hfree hclosed hagreed hplain mem'⟩

/-- Mono on a device that plays stereo only, at the one rate that is left of a range with crossed
bounds.  Another device takes these samples in the same way and others as well: what was duplicated
for the first one is opened there as it is. -/
theorem reopening_after_duplication :
    let device (t : Capabilities) : Hardware := .new (.manual ⟨t, 0, true⟩) .none
    let taken : Capability := ⟨.stereo, .range 9000 4000⟩
    let t : Capabilities := { pcm16 := some taken }
    let t' : Capabilities := { Capabilities.all with pcm16 := some taken }
    let settings := { Settings.standard with frameCount := 3 }
    let requested : Format := ⟨.pcm16, .mono, 8000⟩
    let f : Format := ⟨.pcm16, .stereo, 9000⟩
    let q := (new (device t') settings).step (.command (.openStream .machine f))
    ((new (device t) settings).step (.command (.openStream .machine requested))).1 =
        [.opened 0 f true] ∧
      requested.negotiate t = .ok f ∧ f.negotiate t' = .ok f ∧ q.1 = [.opened 0 f false] ∧
      ∃ st, q.2.session.stream = some st ∧ st.format = f ∧ st.widens = false := by
  intro device taken t t' settings requested f q
  have hopen : ((new (device t) settings).step (.command (.openStream .machine requested))).1 =
      [.opened 0 f true] := by decide +kernel
  have hnegotiated : requested.negotiate t = .ok f := by decide +kernel
  have hreopened : q.1 = [.opened 0 f false] := by decide +kernel
  obtain ⟨hformats, hsessions⟩ := reopening_keeps_format
  have hplain := (hsessions (new (device t) settings) (new (device t') settings) .machine .machine
    requested f 0 true hopen rfl rfl rfl rfl).2
  have hmem : .opened 0 f false ∈ q.1 := hreopened ▸ List.mem_singleton.mpr rfl
  obtain ⟨-, -, hlasting⟩ := hplain.opened 0 f false hmem
  exact ⟨hopen, hnegotiated, hformats requested f t t' hnegotiated rfl, hreopened,
    hlasting [] List.not_mem_nil⟩

end Playback

end Playout

import Playout.Negotiation

/-!
# The choice of a format

`Format.negotiate` tries one encoding after the other and takes the first that will do.  Without an
order of trials: a request is played in its own encoding if the device can do so, else in the first
one by preference in which it can, in its own layout wherever that is possible, and at the rate that
is nearest to its own.
-/

namespace Playout

/-! ## 1. The nearest rate -/

/-- How far a rate is from the one that was asked for. -/
def rateDistance (requested rate : UInt32) : Nat := ((rate.toNat : Int) - requested.toNat).natAbs

/-- What a device with these rates plays for a request: the same rate, the only one it has, or of a
range the one that is nearer than all others.  Of a range with crossed bounds only the lower one is
left. -/
def Rates.Nearest (s : Rates) (requested rate : UInt32) : Prop :=
  match s with
  | .any => rate = requested
  | .fixed only => rate = only
  | .range lo hi =>
    lo.toNat ≤ rate.toNat ∧ rate.toNat ≤ max lo.toNat hi.toNat ∧
      ∀ x : UInt32, lo.toNat ≤ x.toNat → x.toNat ≤ max lo.toNat hi.toNat → x ≠ rate →
        rateDistance requested rate < rateDistance requested x

theorem toNat_clampRate (lo hi x : UInt32) :
    (clampRate lo hi x).toNat = max lo.toNat (min x.toNat (max lo.toNat hi.toNat)) := by
  simp only [clampRate, UInt32.lt_iff_toNat_lt]
  by_cases hlow : x.toNat < lo.toNat
  · rw [if_pos hlow]
    omega
  · rw [if_neg hlow]
    split
    next hcrossed => split <;> omega
    next => split <;> omega

/-- The rate that is played is the nearest one, and there is no other. -/
theorem Rates.nearest_iff {s : Rates} {requested rate : UInt32} :
    s.Nearest requested rate ↔ s.resolve requested = rate := by
  cases s with
  | any => exact eq_comm
  | fixed only => exact eq_comm
  | range lo hi =>
    have hclamp := toNat_clampRate lo hi requested
    simp only [Nearest, resolve]
    constructor
    · rintro ⟨hlow, hhigh, hnear⟩
      refine Decidable.byContradiction fun hne => ?_
      -- the clamped rate would be nearer still
      have hless := hnear (clampRate lo hi requested) (by omega) (by omega) hne
      unfold rateDistance at hless
      omega
    · rintro rfl
      refine ⟨by omega, by omega, fun x hlow hhigh hne => ?_⟩
      have hother := mt UInt32.toNat_inj.mp hne
      unfold rateDistance
      omega

/-! ## 2. Acceptable encodings -/

-- Mono becomes stereo where only stereo is taken and samples can be copied; every other layout that
-- is played at all is played as it is.
theorem Layouts.eq_of_resolve {s : Layouts} {c d : Layout} {e : Encoding}
    (h : s.resolve c e = some d) :
    d = if c = .mono ∧ s = .stereo ∧ e.isLinear = true then .stereo else c := by
  cases s <;> cases c <;> cases e <;> cases h <;> rfl

namespace Format

/-- The device takes the encoding, it can carry the layout of the request in it, and it plays the
request at a rate that is not zero. -/
def Acceptable (r : Format) (t : Capabilities) (e : Encoding) : Prop :=
  ∃ c, t.get? e = some c ∧ (∃ layout, c.layouts.resolve r.layout e = some layout) ∧
    c.rates.resolve r.frameRate ≠ 0

variable {r f : Format} {t t' : Capabilities} {e : Encoding}

theorem playedAs?_eq_some : r.playedAs? t e = some f ↔
    f.encoding = e ∧ ∃ c, t.get? e = some c ∧ c.layouts.resolve r.layout e = some f.layout ∧
      c.rates.resolve r.frameRate = f.frameRate ∧ f.frameRate ≠ 0 := by
  unfold playedAs?
  constructor
  · intro h
    obtain ⟨c, hc, h⟩ := Option.bind_eq_some_iff.mp h
    obtain ⟨layout, hlayout, h⟩ := Option.bind_eq_some_iff.mp h
    simp only at h
    split at h
    next => cases h
    next hrate =>
      cases h
      exact ⟨rfl, c, hc, hlayout, rfl, hrate⟩
  · rintro ⟨rfl, c, hc, hlayout, hrate, hpos⟩
    refine Option.bind_eq_some_iff.mpr ⟨c, hc, Option.bind_eq_some_iff.mpr ⟨_, hlayout, ?_⟩⟩
    rw [hrate, if_neg hpos]

theorem acceptable_iff : r.Acceptable t e ↔ ∃ f, r.playedAs? t e = some f := by
  constructor
  · rintro ⟨c, hc, ⟨layout, hlayout⟩, hrate⟩
    exact ⟨⟨e, layout, _⟩, playedAs?_eq_some.mpr ⟨rfl, c, hc, hlayout, rfl, hrate⟩⟩
  · rintro ⟨f, hf⟩
    obtain ⟨-, c, hc, hlayout, hrate, hpos⟩ := playedAs?_eq_some.mp hf
    exact ⟨c, hc, ⟨f.layout, hlayout⟩, hrate ▸ hpos⟩

theorem playedAs?_eq_none : r.playedAs? t e = none ↔ ¬ r.Acceptable t e := by
  rw [acceptable_iff, ← Option.isSome_iff_exists, Option.not_isSome_iff_eq_none]

-- What is played in an encoding is in this encoding.
theorem encoding_of_playedAs? (h : r.playedAs? t e = some f) : f.encoding = e :=
  (playedAs?_eq_some.mp h).1

/-! ## 3. The first that will do -/

theorem mem_candidates (r : Format) (e : Encoding) : e ∈ r.candidates := by
  by_cases he : e = r.encoding
  · exact he ▸ List.mem_cons_self
  · exact List.mem_cons_of_mem _
      (List.mem_filter.mpr ⟨Encoding.mem_preference e, bne_iff_ne.mpr he⟩)

-- What a search would not find anyway need not be searched.
theorem findSome?_filter_ne {l : List Encoding} {g : Encoding → Option Format} (h : g e = none) :
    (l.filter (· != e)).findSome? g = l.findSome? g := by
  induction l with
  | nil => rfl
  | cons x l ih =>
    by_cases hx : x = e
    · subst hx
      rw [List.filter_cons_of_neg (by simp), List.findSome?_cons, h, ih]
    · rw [List.filter_cons_of_pos (by simpa using hx), List.findSome?_cons, List.findSome?_cons, ih]

theorem findSome?_candidates (r : Format) (t : Capabilities) :
    r.candidates.findSome? (r.playedAs? t) =
      (r.playedAs? t r.encoding).or (Encoding.preference.findSome? (r.playedAs? t)) := by
  rw [candidates, List.findSome?_cons]
  cases hown : r.playedAs? t r.encoding with
  | some f => rfl
  | none => exact findSome?_filter_ne hown

theorem negotiate_eq_ok_iff : r.negotiate t = .ok f ↔
    r.frameRate ≠ 0 ∧ r.candidates.findSome? (r.playedAs? t) = some f := by
  unfold negotiate
  by_cases hrate : r.frameRate = 0
  · simp [hrate]
  · rw [if_neg hrate]
    cases r.candidates.findSome? (r.playedAs? t) <;> simp [hrate]

theorem negotiate_eq_error_iff {u : NoCommonFormat} : r.negotiate t = .error u ↔
    u = ⟨r⟩ ∧ (r.frameRate = 0 ∨ ∀ e, ¬ r.Acceptable t e) := by
  have hnone : r.candidates.findSome? (r.playedAs? t) = none ↔ ∀ e, ¬ r.Acceptable t e := by
    rw [List.findSome?_eq_none_iff]
    constructor
    · exact fun h e => playedAs?_eq_none.mp (h e (r.mem_candidates e))
    · exact fun h e _ => playedAs?_eq_none.mpr (h e)
  rw [← hnone]
  unfold negotiate
  by_cases hrate : r.frameRate = 0
  · simp [hrate, eq_comm]
  · rw [if_neg hrate]
    cases r.candidates.findSome? (r.playedAs? t) <;> simp [hrate, eq_comm]

/-- The encoding in which a request is played: its own one if that is acceptable, else the first
acceptable one by preference. -/
structure Chosen (r : Format) (t : Capabilities) (e : Encoding) : Prop where
  acceptable : r.Acceptable t e
  own : r.Acceptable t r.encoding → e = r.encoding
  first : ¬ r.Acceptable t r.encoding → ∃ before after,
    Encoding.preference = before ++ e :: after ∧ ∀ x ∈ before, ¬ r.Acceptable t x

theorem findSome?_candidates_eq_some : r.candidates.findSome? (r.playedAs? t) = some f ↔
    r.Chosen t f.encoding ∧ r.playedAs? t f.encoding = some f := by
  rw [findSome?_candidates]
  constructor
  · intro h
    rcases Option.or_eq_some_iff.mp h with hown | ⟨hown, hfirst⟩
    · have he := encoding_of_playedAs? hown
      have hacceptable := acceptable_iff.mpr ⟨f, hown⟩
      rw [he]
      exact ⟨⟨hacceptable, fun _ => rfl, fun hno => absurd hacceptable hno⟩, hown⟩
    · obtain ⟨before, e, after, hlist, he, hbefore⟩ := List.findSome?_eq_some_iff.mp hfirst
      obtain rfl := encoding_of_playedAs? he
      refine ⟨⟨acceptable_iff.mpr ⟨f, he⟩, fun hyes => ?_, fun _ => ⟨before, after, hlist, ?_⟩⟩, he⟩
      · exact absurd hyes (playedAs?_eq_none.mp hown)
      · exact fun x hx => playedAs?_eq_none.mp (hbefore x hx)
  · rintro ⟨hchosen, hplayed⟩
    by_cases hyes : r.Acceptable t r.encoding
    · rw [← hchosen.own hyes, hplayed]
      rfl
    · obtain ⟨before, after, hlist, hbefore⟩ := hchosen.first hyes
      rw [playedAs?_eq_none.mpr hyes, Option.none_or, List.findSome?_eq_some_iff]
      exact ⟨before, _, after, hlist, hplayed, fun x hx => playedAs?_eq_none.mpr (hbefore x hx)⟩

end Format

/-! ## 4. One encoding after the other -/

/-- Clamping with the check that the bounds are not crossed. -/
def clamp? (lo hi x : UInt32) : Option UInt32 :=
  if hi < lo then none else some (if x < lo then lo else if hi < x then hi else x)

-- Against the larger one of both bounds the check never fails.
theorem clamp?_max (lo hi x : UInt32) : clamp? lo (max hi lo) x = some (clampRate lo hi x) := by
  have hmax : max hi lo = if hi < lo then lo else hi := by
    show (if hi ≤ lo then lo else hi) = _
    rw [← UInt32.toNat_inj]
    simp only [UInt32.le_iff_toNat_le, UInt32.lt_iff_toNat_lt]
    split <;> split <;> omega
  have hle : ¬ max hi lo < lo := by
    rw [hmax]
    simp only [UInt32.lt_iff_toNat_lt]
    split <;> omega
  rw [clamp?, if_neg hle, hmax]
  rfl

/-- The rate that a request is played at, with the check that clamping makes. -/
def Rates.resolve? (s : Rates) (requested : UInt32) : Option UInt32 :=
  match s with
  | .any => some requested
  | .fixed rate => some rate
  | .range lo hi => clamp? lo (max hi lo) requested

theorem Rates.resolve?_eq (s : Rates) (requested : UInt32) :
    s.resolve? requested = some (s.resolve requested) := by
  cases s with
  | any => rfl
  | fixed rate => rfl
  | range lo hi => exact clamp?_max lo hi requested

namespace Format

/-- Tries the encodings in this order; each one that will not do is skipped.  No answer means that a
check has failed. -/
def scan (r : Format) (t : Capabilities) :
    List Encoding → Option (Except NoCommonFormat Format)
  | [] => some (.error ⟨r⟩)
  | e :: rest =>
    match t.get? e with
    | none => r.scan t rest
    | some c =>
      match c.layouts.resolve r.layout e with
      | none => r.scan t rest
      | some layout =>
        match c.rates.resolve? r.frameRate with
        | none => none
        | some rate => if rate = 0 then r.scan t rest else some (.ok ⟨e, layout, rate⟩)

/-- Negotiation with its checks. -/
def negotiate? (r : Format) (t : Capabilities) : Option (Except NoCommonFormat Format) :=
  if r.frameRate = 0 then some (.error ⟨r⟩) else r.scan t r.candidates

variable {r f : Format} {t : Capabilities}

-- No check fails on the way, and the first encoding that will do ends the search.
theorem scan_eq (r : Format) (t : Capabilities) (es : List Encoding) :
    r.scan t es = some (match es.findSome? (r.playedAs? t) with
      | some f => .ok f
      | none => .error ⟨r⟩) := by
  induction es with
  | nil => rfl
  | cons e rest ih =>
    rw [scan, List.findSome?_cons, playedAs?]
    cases t.get? e with
    | none => exact ih
    | some c =>
      simp only [Option.bind_eq_bind, Option.bind_some]
      cases c.layouts.resolve r.layout e with
      | none => exact ih
      | some layout =>
        simp only [Option.bind_some, c.rates.resolve?_eq]
        split
        next => exact ih
        next => rfl

theorem negotiate?_eq (r : Format) (t : Capabilities) : r.negotiate? t = some (r.negotiate t) := by
  unfold negotiate? negotiate
  split
  · rfl
  · exact r.scan_eq t r.candidates

/-! ## 5. The best format -/

/-- For every request and every table:

* there is no format exactly if the request asks for no frames per second or no encoding is
  acceptable, and then the refusal carries the request as it is;
* otherwise there is exactly one, in the encoding that is chosen.  Its layout is that of the
  request, but mono becomes stereo where the device takes stereo only and samples can be copied; its
  rate is not zero and is the nearest one;
* no check fails on the way there, whatever the bounds of a range are. -/
theorem negotiate_best (r : Format) (t : Capabilities) :
    (∀ u, r.negotiate t = .error u ↔ u = ⟨r⟩ ∧ (r.frameRate = 0 ∨ ∀ e, ¬ r.Acceptable t e)) ∧
    (∀ f, r.negotiate t = .ok f ↔ r.frameRate ≠ 0 ∧ r.Chosen t f.encoding ∧
      ∃ c, t.get? f.encoding = some c ∧
        f.layout = (if r.layout = .mono ∧ c.layouts = .stereo ∧ f.encoding.isLinear = true
          then .stereo else r.layout) ∧
        c.rates.Nearest r.frameRate f.frameRate ∧ f.frameRate ≠ 0) ∧
    r.negotiate? t = some (r.negotiate t) := by
  refine ⟨fun u => negotiate_eq_error_iff, fun f => ?_, r.negotiate?_eq t⟩
  rw [negotiate_eq_ok_iff, findSome?_candidates_eq_some, playedAs?_eq_some]
  refine and_congr_right fun _ => and_congr_right fun hchosen => ?_
  constructor
  · rintro ⟨-, c, hc, hlayout, hrate, hpos⟩
    exact ⟨c, hc, Layouts.eq_of_resolve hlayout, Rates.nearest_iff.mpr hrate, hpos⟩
  · rintro ⟨c, hc, hlayout, hrate, hpos⟩
    -- an acceptable encoding carries the layout, and there is one way to do so
    obtain ⟨c', hc', ⟨layout, hcarried⟩, -⟩ := hchosen.acceptable
    obtain rfl : c' = c := Option.some.inj (hc'.symm.trans hc)
    rw [← Layouts.eq_of_resolve hcarried] at hlayout
    exact ⟨rfl, c', hc, hlayout ▸ hcarried, Rates.nearest_iff.mp hrate, hpos⟩

end Format

end Playout

import Mathlib.Logic.Function.Basic
import Playout.Wire
import Playout.Proofs.JsonText

/-!
# The written form loses nothing

Every value of a type with a written form is read back from its text, with any blanks around it, so
no two values have the same text.
-/

namespace Playout

namespace Wire

/-! ## 1. Fields -/

/-- The members of an object with these fields. -/
def members (names : List String) (vs : List Json) : List (Option String × Json) :=
  (names.map some).zip vs

theorem members_cons (name : String) (names : List String) (v : Json) (vs : List Json) :
    members (name :: names) (v :: vs) = (some name, v) :: members names vs := rfl

theorem name_of_mem_members {names : List String} {vs : List Json} {m : Option String × Json}
    (hm : m ∈ members names vs) : ∃ name ∈ names, m.1 = some name := by
  obtain ⟨name, hname, heq⟩ := List.mem_map.mp (List.of_mem_zip hm).1
  exact ⟨name, hname, heq.symm⟩

theorem filter_members {names : List String} {name : String} (h : name ∉ names) (vs : List Json) :
    (members names vs).filter (·.1 == some name) = [] := by
  rw [List.filter_eq_nil_iff]
  intro m hm heq
  obtain ⟨other, hother, hname⟩ := name_of_mem_members hm
  rw [beq_iff_eq, hname, Option.some_inj] at heq
  exact h (heq ▸ hother)

theorem pick_cons {name : String} {names : List String} {ms : List (Option String × Json)}
    {m : Option String × Json} {rest : List (Option Json)}
    (hfound : ms.filter (·.1 == some name) = [m]) (hrest : pick names ms = some rest) :
    pick (name :: names) ms = some (some m.2 :: rest) := by
  unfold pick at hrest ⊢
  split at hrest
  next hkeys =>
    rw [if_pos hkeys, List.mapM_cons, hfound, hrest]
    rfl
  next => cases hrest

/-- Each of distinct fields is found where it was written, after members of other names. -/
theorem pick_append_members {names : List String} (hnodup : names.Nodup) {vs : List Json}
    (hlength : vs.length = names.length) {before : List (Option String × Json)}
    (hbefore : ∀ m ∈ before, ∃ name ∉ names, m.1 = some name) :
    pick names (before ++ members names vs) = some (vs.map some) := by
  induction names generalizing vs before with
  | nil =>
    have hkeys : (before ++ members [] vs).all (·.1.isSome) = true := by
      rw [List.all_eq_true]
      intro m hm
      obtain ⟨name, -, hname⟩ := hbefore m (by simpa [members] using hm)
      rw [hname, Option.isSome_some]
    rw [pick, if_pos hkeys, List.length_eq_zero_iff.mp hlength]
    rfl
  | cons name names ih =>
    cases vs with
    | nil => cases hlength
    | cons v vs =>
      rw [List.nodup_cons] at hnodup
      have hnone : before.filter (·.1 == some name) = [] := by
        rw [List.filter_eq_nil_iff]
        intro m hm heq
        obtain ⟨other, hother, hname⟩ := hbefore m hm
        rw [beq_iff_eq, hname, Option.some_inj] at heq
        exact hother (heq ▸ List.mem_cons_self)
      have hfound : (before ++ members (name :: names) (v :: vs)).filter (·.1 == some name) =
          [(some name, v)] := by
        rw [members_cons, List.filter_append, hnone, List.filter_cons_of_pos (by simp),
          filter_members hnodup.1]
        rfl
      refine pick_cons hfound ?_
      rw [members_cons, List.append_cons]
      refine ih hnodup.2 (Nat.succ.inj hlength) fun m hm => ?_
      rcases List.mem_append.mp hm with hm | hm
      · obtain ⟨other, hother, hname⟩ := hbefore m hm
        exact ⟨other, fun h => hother (List.mem_cons_of_mem _ h), hname⟩
      · rw [List.mem_singleton.mp hm]
        exact ⟨name, hnodup.1, rfl⟩

theorem pick_members {names : List String} (hnodup : names.Nodup) {vs : List Json}
    (hlength : vs.length = names.length) : pick names (members names vs) = some (vs.map some) :=
  pick_append_members hnodup hlength (List.forall_mem_nil _)

theorem fields?_members {names : List String} (vs : List Json) (hnodup : names.Nodup)
    (hlength : vs.length = names.length) :
    fields? names (.record (members names vs)) = some (vs.map some) :=
  pick_members hnodup hlength

theorem onlyFields?_members {names : List String} (vs : List Json) (hnodup : names.Nodup)
    (hlength : vs.length = names.length) :
    onlyFields? names (.record (members names vs)) = some (vs.map some) := by
  have hknown : (members names vs).all (fun m => m.1.any names.contains) = true := by
    rw [List.all_eq_true]
    intro m hm
    obtain ⟨name, hmem, hname⟩ := name_of_mem_members hm
    rw [hname]
    exact List.contains_iff_mem.mpr hmem
  rw [onlyFields?, if_pos hknown]
  exact pick_members hnodup hlength

/-! ## 2. Words and choices -/

/-- A written form that is read back.  It is never null, which stands for what is missing. -/
class Lawful (α : Type) [Wire α] : Prop where
  decode?_encode (x : α) : decode? (encode x) = some x
  encode_ne_null (x : α) : encode x ≠ .null

export Lawful (decode?_encode encode_ne_null)

theorem required_encode {α : Type} [Wire α] [Lawful α] (x : α) :
    required (some (encode x)) = some x :=
  decode?_encode x

theorem optional_of_ne_null {α : Type} [Wire α] {v : Json} (h : v ≠ .null) :
    optional (some v) = (decode? v).map (some : α → Option α) := by
  cases v with
  | null => exact absurd rfl h
  | _ => rfl

theorem optional_encode {α : Type} [Wire α] [Lawful α] (x : Option α) :
    optional (some (encode x)) = some x := by
  cases x with
  | none => rfl
  | some x =>
    show optional (some (encode x)) = some (some x)
    rw [optional_of_ne_null (encode_ne_null x), decode?_encode, Option.map_some]

/-- What may be missing is read back by itself too. -/
theorem decode?_option {α : Type} [Wire α] [Lawful α] (x : Option α) :
    decode? (encode x) = some x :=
  optional_encode x

/-- A word is read back from its digits. -/
theorem map_bounded? {α : Type} {limit n : Nat} (h : n < limit) {ofNat : Nat → α} {x : α}
    (hx : ofNat n = x) : (bounded? limit (.number n)).map ofNat = some x := by
  rw [bounded?, if_pos h, Option.map_some, hx]

instance : Lawful Bool := ⟨fun _ => rfl, nofun⟩

instance : Lawful UInt8 := ⟨fun n => map_bounded? n.toNat_lt_size UInt8.ofNat_toNat, nofun⟩

instance : Lawful UInt32 := ⟨fun n => map_bounded? n.toNat_lt_size UInt32.ofNat_toNat, nofun⟩

instance : Lawful UInt64 := ⟨fun n => map_bounded? (toNat_lt_wordLimit n) UInt64.ofNat_toNat, nofun⟩

theorem decode?_duration {v : Json} {a b : Option Json}
    (hfields : onlyFields? ["secs", "nanos"] v = some [a, b]) :
    (decode? v : Option Duration) = (required a).bind fun s : UInt64 =>
      (required b).bind fun n : UInt32 => Duration.ofParts? s.toNat n.toNat := by
  simp only [decode?, hfields, Option.bind_eq_bind]

instance : Lawful Duration where
  decode?_encode d := by
    have hsub : d.subsecond < UInt32.size := Nat.lt_trans d.subsecond_lt (by decide)
    have hs : required (some (.number d.seconds)) = some (UInt64.ofNat d.seconds) :=
      map_bounded? d.seconds_lt rfl
    have hn : required (some (.number d.subsecond)) = some (UInt32.ofNat d.subsecond) :=
      map_bounded? hsub rfl
    have hfields : onlyFields? ["secs", "nanos"] (encode d) =
        some [some (.number d.seconds), some (.number d.subsecond)] :=
      onlyFields?_members [.number d.seconds, .number d.subsecond] (by decide) rfl
    rw [decode?_duration hfields, hs, hn, Option.bind_some, Option.bind_some, UInt64.toNat_ofNat_of_lt' d.seconds_lt,
      UInt32.toNat_ofNat_of_lt' hsub, d.ofParts?_seconds_subsecond]
  encode_ne_null _ := nofun

instance : Lawful Encoding := ⟨fun e => by cases e <;> rfl, nofun⟩

instance : Lawful Layout := ⟨fun c => by cases c <;> rfl, nofun⟩

instance : Lawful Layouts := ⟨fun s => by cases s <;> rfl, nofun⟩

instance : Lawful Fallback := ⟨fun p => by cases p <;> rfl, nofun⟩

instance : Lawful WaitMode := ⟨fun s => by cases s <;> rfl, nofun⟩

instance : Lawful SessionState := ⟨fun s => by cases s <;> rfl, nofun⟩

instance : Lawful Rates where
  decode?_encode r := by
    cases r with
    | any => rfl
    | fixed rate =>
      show (decode? (encode rate)).map Rates.fixed = some (.fixed rate)
      rw [decode?_encode, Option.map_some]
    | range lo hi =>
      have hfields : fields? ["min", "max"] (.record [(some "min", encode lo),
          (some "max", encode hi)]) = some [some (encode lo), some (encode hi)] :=
        fields?_members [encode lo, encode hi] (by decide) rfl
      have hchoice : choice? (encode (Rates.range lo hi)) = some ("Range",
          some (.record [(some "min", encode lo), (some "max", encode hi)])) := rfl
      simp only [decode?, hchoice, hfields, required_encode, Option.bind_eq_bind, Option.bind_some]
  encode_ne_null r := by cases r <;> nofun

/-! ## 3. Records -/

instance : Lawful Gain where
  decode?_encode g := by
    show (decode? (encode g.level)).map Gain.mk = some g
    rw [decode?_encode, Option.map_some]
  encode_ne_null _ := nofun

instance : Lawful Format where
  decode?_encode f := by
    have hfields : fields? ["encoding", "channels", "frame_rate"] (encode f) =
        some [some (encode f.encoding), some (encode f.layout), some (encode f.frameRate)] :=
      fields?_members [encode f.encoding, encode f.layout, encode f.frameRate] (by decide) rfl
    simp only [decode?, hfields, required_encode, Option.bind_eq_bind, Option.bind_some]
  encode_ne_null _ := nofun

instance : Lawful Capability where
  decode?_encode c := by
    have hfields : fields? ["channels", "rate"] (encode c) =
        some [some (encode c.layouts), some (encode c.rates)] :=
      fields?_members [encode c.layouts, encode c.rates] (by decide) rfl
    simp only [decode?, hfields, required_encode, Option.bind_eq_bind, Option.bind_some]
  encode_ne_null _ := nofun

instance : Lawful Capabilities where
  decode?_encode t := by
    show (do some (Capabilities.mk (← decode? (encode t.pcm16)) (← decode? (encode t.pcm8))
      (← decode? (encode t.adpcm4)))) = some t
    simp only [decode?_option, Option.bind_eq_bind, Option.bind_some]
  encode_ne_null _ := nofun

instance : Lawful Reading where
  decode?_encode d := by
    have hfields : fields? ["pulls", "delivered_bytes", "underruns", "stalls"] (encode d) =
        some [some (encode d.pulls), some (encode d.deliveredBytes), some (encode d.underruns),
          some (encode d.stalls)] :=
      fields?_members [encode d.pulls, encode d.deliveredBytes, encode d.underruns,
        encode d.stalls] (by decide) rfl
    simp only [decode?, hfields, required_encode, Option.bind_eq_bind, Option.bind_some]
  encode_ne_null _ := nofun

instance : Lawful Settings where
  decode?_encode c := by
    have hfields : fields? settingNames (encode c) =
        some [some (encode c.encoding), some (encode c.doubleBuffered), some (encode c.gain),
          some (encode c.frameCount), some (encode c.alignment), some (encode c.fallback),
          some (encode c.waitMode), some (encode c.pollInterval),
          some (encode c.stallThreshold), some (encode c.realtimePriority)] :=
      fields?_members [encode c.encoding, encode c.doubleBuffered, encode c.gain,
        encode c.frameCount, encode c.alignment, encode c.fallback, encode c.waitMode,
        encode c.pollInterval, encode c.stallThreshold, encode c.realtimePriority] (by decide) rfl
    simp only [decode?, hfields, required_encode, optional_encode, Option.bind_eq_bind,
      Option.bind_some]
  encode_ne_null _ := nofun

/-! ## 4. Texts -/

theorem read?_write {α : Type} [Wire α] [Lawful α] (x : α) {before after : String}
    (hbefore : ∀ c ∈ before.toList, Json.isBlank c = true)
    (hafter : ∀ c ∈ after.toList, Json.isBlank c = true) :
    read? α (before ++ write x ++ after) = some x := by
  rw [read?, write, Json.parse?_render (encode x) hbefore hafter, Option.bind_some,
    decode?_encode]

/-- The texts of a type lose nothing of its values. -/
structure Lossless (α : Type) [Wire α] : Prop where
  /-- A value is read back from its text, whatever blanks stand around it. -/
  read_write : ∀ (x : α) (before after : String),
    (∀ c ∈ before.toList, Json.isBlank c = true) → (∀ c ∈ after.toList, Json.isBlank c = true) →
    read? α (before ++ write x ++ after) = some x
  /-- No two values have the same text. -/
  write_injective : Function.Injective (write : α → String)
  /-- Of any text that is read, the value written out again is read as the same value. -/
  read_write_read : ∀ (s : String) (x : α), read? α s = some x → read? α (write x) = some x

theorem lossless {α : Type} [Wire α] [Lawful α] : Lossless α := by
  have hread : ∀ x : α, read? α (write x) = some x := by
    intro x
    have h : read? α ("" ++ write x ++ "") = some x := read?_write x nofun nofun
    rwa [String.empty_append, String.append_empty] at h
  refine ⟨fun x _ _ hbefore hafter => read?_write x hbefore hafter, fun x y hxy => ?_,
    fun _ x _ => hread x⟩
  have hx := hread x
  rw [hxy, hread y] at hx
  exact (Option.some.inj hx).symm

/-- Nothing that is written is lost. -/
theorem writing_loses_nothing :
    Lossless Format ∧ Lossless Encoding ∧ Lossless Layout ∧ Lossless Capability ∧
      Lossless Capabilities ∧ Lossless Layouts ∧ Lossless Rates ∧ Lossless Settings ∧
      Lossless Gain ∧ Lossless Fallback ∧ Lossless WaitMode ∧ Lossless SessionState ∧
      Lossless Reading :=
  ⟨lossless, lossless, lossless, lossless, lossless, lossless, lossless, lossless, lossless,
    lossless, lossless, lossless, lossless⟩

-- Texts that are written otherwise than the values they are read as.
example : read? Rates "\n\x7b \"Range\": [8000, 48000] \x7d" = some (.range 8000 48000) ∧
    write (Rates.range 8000 48000) = "\x7b\"Range\":\x7b\"min\":8000,\"max\":48000\x7d\x7d" := by
  decide +kernel

end Wire

end Playout

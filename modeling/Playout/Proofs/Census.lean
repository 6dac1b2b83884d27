import Mathlib.Data.List.Nodup
import Mathlib.Data.Nat.ModEq
import Playout.Proofs.Device

/-!
# Which stream a handle names

A census numbers the streams of a simulated device in the order in which they are created, and knows
for each live one which number it has.  A handle is that number as far as 32 bits hold it.  So two
live streams share a handle exactly when their numbers differ by a multiple of `handleLimit`, and as
long as no live stream is that many creations old, a handle names the stream that was created with
it, and no call on it touches another one.

A stream may well grow that old.  Then a new one gets its handle, and what is meant for the new one
goes to the old one.
-/

namespace Playout

/-- The first number that a handle does not hold: two to the 32nd. -/
def handleLimit : Nat := 4294967296

namespace Simulator

/-! ## 1. Numbering streams -/

/-- A device, and which of its streams is which. -/
structure Census where
  device : Simulator
  -- For each live stream, in its place, how many were created before it.
  births : List Nat
  -- How many have been created.
  made : Nat
deriving DecidableEq, Repr

namespace Census

def begin (capabilities : Capabilities) (period : Option Duration) : Census :=
  ⟨.new capabilities period, [], 0⟩

def call (q : Census) (c : Call) : Census where
  device := (q.device.perform c).2
  births := q.device.beside q.made none q.births c
  made := match (q.device.perform c).1 with
    | .ok (.created _) => q.made + 1
    | _ => q.made

def run (q : Census) (cs : List Call) : Census := cs.foldl call q

/-- The live streams with their numbers. -/
def entries (q : Census) : List (Nat × Stream) := q.births.zip q.device.streams

/-! ## 2. What one call does -/

/-- What a call does to the streams, whatever their places. -/
inductive Turn (q : Census) (c : Call) (q' : Census) : Prop where
  | kept (hentries : q'.entries = q.entries) (hmade : q'.made = q.made)
      (hnext : q'.device.nextId = q.device.nextId)
  | added (s : Stream) (hs : s.handle = ⟨q.device.nextId⟩)
      (hentries : q'.entries = q.entries ++ [(q.made, s)]) (hmade : q'.made = q.made + 1)
      (hnext : q'.device.nextId = q.device.nextId + 1) (hc : c.handle? = none)
  | changed (h : Handle) (n : Nat) (s s' : Stream) (rest : List (Nat × Stream))
      (hc : c.handle? = some h) (hs : q.device.stream? h = some s)
      (hbefore : q.entries.Perm ((n, s) :: rest)) (hafter : q'.entries.Perm ((n, s') :: rest))
      (hhandle : s'.handle = s.handle) (hmade : q'.made = q.made)
      (hnext : q'.device.nextId = q.device.nextId)
  | removed (h : Handle) (n : Nat) (s : Stream) (rest : List (Nat × Stream))
      (hc : c.handle? = some h) (hs : q.device.stream? h = some s)
      (hbefore : q.entries.Perm ((n, s) :: rest)) (hafter : q'.entries.Perm rest)
      (hmade : q'.made = q.made) (hnext : q'.device.nextId = q.device.nextId)

variable {q : Census} {c : Call}

-- A call that leaves streams and numbers alone.
theorem turn_of_same {q' : Census} (hlen : q.births.length = q.device.streams.length)
    (hbirths : q'.births = q.births) (hstreams : q'.device.streams = q.device.streams)
    (hmade : q'.made = q.made) (hnext : q'.device.nextId = q.device.nextId) :
    Turn q c q' ∧ q'.births.length = q'.device.streams.length := by
  refine ⟨.kept ?_ hmade hnext, ?_⟩
  · rw [entries, hbirths, hstreams, entries]
  · rw [hbirths, hstreams, hlen]

-- A call that changes the stream its handle names.
theorem turn_of_set {q' : Census} (hlen : q.births.length = q.device.streams.length) {h : Handle}
    {i : Nat} {s : Stream} (s' : Stream) (hc : c.handle? = some h) (hi : q.device.place? h = some i)
    (hs : q.device.streams[i]? = some s) (hhandle : s'.handle = s.handle)
    (hbirths : q'.births = q.births) (hstreams : q'.device.streams = q.device.streams.set i s')
    (hmade : q'.made = q.made) (hnext : q'.device.nextId = q.device.nextId) :
    Turn q c q' ∧ q'.births.length = q'.device.streams.length := by
  obtain ⟨n, rest, -, hbefore, hafter, -, -⟩ := zip_at hlen hs
  have hfound := (stream?_of_place? hi).trans hs
  refine ⟨.changed h n s s' rest hc hfound hbefore ?_ hhandle hmade hnext, ?_⟩
  · rw [entries, hbirths, hstreams]
    exact hafter s'
  · rw [hbirths, hstreams, List.length_set, hlen]

/-- A call changes at most one stream, and that is one whose handle it is given. -/
theorem turn (hlen : q.births.length = q.device.streams.length) (c : Call) :
    Turn q c (q.call c) ∧ (q.call c).births.length = (q.call c).device.streams.length := by
  have heffect := q.device.effect c
  have hfailed : ∀ e, (q.device.perform c).1 = .error e →
      q.device.beside q.made none q.births c = q.births :=
    fun e hr => beside_of_error hr q.made
  have hput := fun h => put_none q.device h q.births
  unfold call
  generalize q.device.perform c = r at heffect hfailed ⊢
  cases heffect with
  | failed c e => exact turn_of_same hlen (hfailed e rfl) rfl rfl rfl
  | unknown c h hc hs =>
    exact turn_of_same hlen (beside_of_unknown hc hs q.made none) rfl rfl rfl
  | already h => exact turn_of_same hlen (hput h) rfl rfl rfl
  | created bytes hroom hbytes =>
    have hbirths := beside_create (l := q.births) hroom hbytes q.made none
    refine ⟨.added ⟨⟨q.device.nextId⟩, bytes, none, none⟩ rfl ?_ rfl rfl rfl, ?_⟩
    · rw [entries, hbirths]
      exact List.zip_append hlen
    · rw [hbirths, List.length_append, List.length_append, hlen]
      rfl
  | registered h feed i s hi hs =>
    exact turn_of_set hlen { s with feed := some feed } rfl hi hs rfl (hput h) rfl rfl rfl
  | gained h => exact turn_of_same hlen (hput h) rfl rfl rfl
  | started h rate stereo i s feed period hi hs =>
    exact turn_of_set hlen { s with worker := some ⟨period, feed, 0⟩ } rfl hi hs rfl (hput h) rfl
      rfl rfl
  | stopped h i s hi hs =>
    exact turn_of_set hlen { s with worker := none } rfl hi hs rfl (hput h) rfl rfl rfl
  | destroyed h i s hi hs =>
    have hbirths := beside_destroy (l := q.births) hi q.made none
    obtain ⟨n, rest, -, hbefore, -, -, hafter⟩ := zip_at hlen hs
    refine ⟨.removed h n s rest rfl ((stream?_of_place? hi).trans hs) hbefore ?_ rfl rfl, ?_⟩
    · rw [entries, hbirths]
      exact hafter
    · rw [hbirths, length_swapRemove, length_swapRemove, hlen]

/-! ## 3. What holds of every census -/

/-- Numbers are given out one after the other, and a handle is a number cut off. -/
structure Inv (q : Census) : Prop where
  length : q.births.length = q.device.streams.length
  nodup : (q.entries.map Prod.fst).Nodup
  lt : ∀ e ∈ q.entries, e.1 < q.made
  handle : ∀ e ∈ q.entries, e.2.handle = ⟨UInt32.ofNat e.1⟩
  next : q.device.nextId = UInt32.ofNat q.made

theorem inv_begin (capabilities : Capabilities) (period : Option Duration) :
    (begin capabilities period).Inv where
  length := rfl
  nodup := List.nodup_nil
  lt _ he := absurd he List.not_mem_nil
  handle _ he := absurd he List.not_mem_nil
  next := rfl

theorem Inv.call (hq : q.Inv) (c : Call) : (q.call c).Inv := by
  obtain ⟨hturn, hlen⟩ := turn hq.length c
  generalize q.call c = q' at hturn hlen
  cases hturn with
  | kept hentries hmade hnext =>
    refine ⟨hlen, ?_, ?_, ?_, ?_⟩
    · rw [hentries]
      exact hq.nodup
    · rw [hentries, hmade]
      exact hq.lt
    · rw [hentries]
      exact hq.handle
    · rw [hnext, hmade, hq.next]
  | added s hs hentries hmade hnext hc =>
    refine ⟨hlen, ?_, ?_, ?_, ?_⟩
    · rw [hentries, List.map_append, List.nodup_append]
      refine ⟨hq.nodup, List.nodup_singleton _, fun n hn m hm => ?_⟩
      obtain ⟨e, he, rfl⟩ := List.mem_map.mp hn
      obtain rfl := List.mem_singleton.mp hm
      exact Nat.ne_of_lt (hq.lt e he)
    · rw [hentries, hmade]
      intro e he
      obtain he | he := List.mem_append.mp he
      · exact Nat.lt_succ_of_lt (hq.lt e he)
      · obtain rfl := List.mem_singleton.mp he
        exact Nat.lt_succ_self _
    · rw [hentries]
      intro e he
      obtain he | he := List.mem_append.mp he
      · exact hq.handle e he
      · obtain rfl := List.mem_singleton.mp he
        rw [hs, hq.next]
    · rw [hnext, hmade, hq.next]
      exact (UInt32.ofNat_add _ _).symm
  | changed h n s s' rest hc hs hbefore hafter hhandle hmade hnext =>
    have hnodup := (hbefore.map Prod.fst).nodup_iff.mp hq.nodup
    refine ⟨hlen, (hafter.map Prod.fst).nodup_iff.mpr hnodup, fun e he => ?_, fun e he => ?_, ?_⟩
    · rw [hmade]
      obtain rfl | he := List.mem_cons.mp (hafter.mem_iff.mp he)
      · exact hq.lt (n, s) (hbefore.mem_iff.mpr List.mem_cons_self)
      · exact hq.lt e (hbefore.mem_iff.mpr (List.mem_cons_of_mem _ he))
    · obtain rfl | he := List.mem_cons.mp (hafter.mem_iff.mp he)
      · exact hhandle.trans (hq.handle (n, s) (hbefore.mem_iff.mpr List.mem_cons_self))
      · exact hq.handle e (hbefore.mem_iff.mpr (List.mem_cons_of_mem _ he))
    · rw [hnext, hmade, hq.next]
  | removed h n s rest hc hs hbefore hafter hmade hnext =>
    have hnodup := (hbefore.map Prod.fst).nodup_iff.mp hq.nodup
    have hold : ∀ e ∈ q'.entries, e ∈ q.entries := fun e he =>
      hbefore.mem_iff.mpr (List.mem_cons_of_mem _ (hafter.mem_iff.mp he))
    refine ⟨hlen, (hafter.map Prod.fst).nodup_iff.mpr (List.nodup_cons.mp hnodup).2, fun e he => ?_,
      fun e he => hq.handle e (hold e he), ?_⟩
    · rw [hmade]
      exact hq.lt e (hold e he)
    · rw [hnext, hmade, hq.next]

theorem Inv.run (hq : q.Inv) (cs : List Call) : (q.run cs).Inv := by
  induction cs generalizing q with
  | nil => exact hq
  | cons c cs ih => exact ih (hq.call c)

theorem device_run (q : Census) (cs : List Call) :
    (q.run cs).device = cs.foldl (fun d c => (d.perform c).2) q.device := by
  induction cs generalizing q with
  | nil => rfl
  | cons c cs ih => exact ih (q.call c)

theorem Inv.map_snd_entries (hq : q.Inv) : q.entries.map Prod.snd = q.device.streams :=
  List.map_snd_zip (Nat.le_of_eq hq.length.symm)

/-! ## 4. Which stream a handle names -/

/-- The oldest live stream is fewer than `handleLimit` creations old. -/
def Young (q : Census) : Prop := ∀ e ∈ q.entries, q.made < e.1 + handleLimit

theorem handle_ofNat_eq_iff (n m : Nat) :
    (⟨UInt32.ofNat n⟩ : Handle) = ⟨UInt32.ofNat m⟩ ↔ n ≡ m [MOD handleLimit] := by
  rw [Handle.mk.injEq, UInt32.ofNat_eq_iff_mod_eq_toNat, UInt32.toNat_ofNat']
  rfl

/-- A handle tells the number of its stream, as far as it holds it. -/
theorem Inv.toNat_id (hq : q.Inv) {e : Nat × Stream} (he : e ∈ q.entries) :
    e.2.handle.id.toNat = e.1 % handleLimit := by
  rw [hq.handle e he]
  exact UInt32.toNat_ofNat'

theorem Inv.handle_eq_iff (hq : q.Inv) {e e' : Nat × Stream} (he : e ∈ q.entries)
    (he' : e' ∈ q.entries) : e.2.handle = e'.2.handle ↔ e.1 ≡ e'.1 [MOD handleLimit] := by
  rw [hq.handle e he, hq.handle e' he', handle_ofNat_eq_iff]

-- Numbers less than `handleLimit` apart are the same if their handles are.
theorem number_eq_of_modEq {n m : Nat} (h : n ≡ m [MOD handleLimit]) (hn : n < m + handleLimit)
    (hm : m < n + handleLimit) : n = m := by
  unfold handleLimit Nat.ModEq at *
  omega

-- A number stands for one stream.
theorem Inv.entry_eq (hq : q.Inv) {e e' : Nat × Stream} (he : e ∈ q.entries) (he' : e' ∈ q.entries)
    (h : e.1 = e'.1) : e = e' :=
  (List.nodup_map_iff_inj_on (List.Nodup.of_map _ hq.nodup)).mp hq.nodup e he e' he' h

/-- Among young streams a handle says which one it is. -/
theorem Inv.number_eq (hq : q.Inv) (hyoung : q.Young) {e e' : Nat × Stream} (he : e ∈ q.entries)
    (he' : e' ∈ q.entries) (h : e.2.handle = e'.2.handle) : e.1 = e'.1 :=
  number_eq_of_modEq ((hq.handle_eq_iff he he').mp h)
    ((hq.lt e he).trans (hyoung e' he')) ((hq.lt e' he').trans (hyoung e he))

theorem Inv.nodup_handles (hq : q.Inv) (hyoung : q.Young) :
    (q.device.streams.map (·.handle)).Nodup := by
  rw [← hq.map_snd_entries, List.map_map]
  exact (List.nodup_map_iff_inj_on (List.Nodup.of_map _ hq.nodup)).mpr fun e he e' he' h =>
    hq.entry_eq he he' (hq.number_eq hyoung he he' h)

/-- The stream that a handle finds has a number. -/
theorem Inv.exists_entry (hq : q.Inv) {h : Handle} {s : Stream} (hs : q.device.stream? h = some s) :
    ∃ n, (n, s) ∈ q.entries := by
  have hmem : s ∈ q.entries.map Prod.snd := by
    rw [hq.map_snd_entries]
    exact List.mem_of_find?_eq_some hs
  obtain ⟨e, he, rfl⟩ := List.mem_map.mp hmem
  exact ⟨e.1, he⟩

/-- Among young streams the handle of a stream finds this stream. -/
theorem Inv.stream?_handle (hq : q.Inv) (hyoung : q.Young) {n : Nat} {s : Stream}
    (he : (n, s) ∈ q.entries) : q.device.stream? s.handle = some s := by
  cases hfound : q.device.stream? s.handle with
  | none =>
    have hmem : s ∈ q.device.streams := hq.map_snd_entries ▸ List.mem_map_of_mem he
    exact absurd rfl (stream?_eq_none_iff.mp hfound s hmem)
  | some t =>
    obtain ⟨m, he'⟩ := hq.exists_entry hfound
    have hnumber := hq.number_eq hyoung he' he (handle_of_stream? hfound)
    rw [(Prod.mk.inj (hq.entry_eq he' he hnumber)).2]

-- In a list of which one entry differs, and in the other list, all other numbers are the same.
theorem mem_cons_iff_of_ne {n m : Nat} (hne : m ≠ n) {s t : Stream} {rest : List (Nat × Stream)} :
    (m, t) ∈ (n, s) :: rest ↔ (m, t) ∈ rest := by
  simp [hne]

/-- A call on a handle of a young stream leaves all streams but that one alone. -/
theorem Inv.mem_entries_call_iff (hq : q.Inv) (hyoung : q.Young) {n : Nat} {s : Stream}
    (hc : c.handle? = some s.handle) (he : (n, s) ∈ q.entries) {m : Nat} {t : Stream}
    (hne : m ≠ n) : (m, t) ∈ (q.call c).entries ↔ (m, t) ∈ q.entries := by
  have hturn := (turn hq.length c).1
  -- the stream that the call finds is the one with that number
  have hfound : ∀ {h n' s'} {rest : List (Nat × Stream)}, c.handle? = some h →
      q.device.stream? h = some s' → q.entries.Perm ((n', s') :: rest) → n' = n :=
    fun {h n' s' rest} hc' hs' hperm =>
      hq.number_eq hyoung (hperm.mem_iff.mpr List.mem_cons_self) he
        ((handle_of_stream? hs').trans (Option.some.inj (hc'.symm.trans hc)))
  cases hturn with
  | kept hentries => rw [hentries]
  | added s' hs' hentries hmade hnext hc' => rw [hc'] at hc; cases hc
  | changed h n' s' s'' rest hc' hs' hbefore hafter =>
    obtain rfl := hfound hc' hs' hbefore
    rw [hafter.mem_iff, hbefore.mem_iff, mem_cons_iff_of_ne hne, mem_cons_iff_of_ne hne]
  | removed h n' s' rest hc' hs' hbefore hafter =>
    obtain rfl := hfound hc' hs' hbefore
    rw [hafter.mem_iff, hbefore.mem_iff, mem_cons_iff_of_ne hne]

-- What a new stream adds.
theorem Inv.entries_create (hq : q.Inv) {bytes : Nat} {h : Handle}
    (hcreated : (q.device.create bytes).1 = .ok h) :
    (q.call (.create bytes)).entries = q.entries ++ [(q.made, ⟨h, bytes, none, none⟩)] ∧
      (q.call (.create bytes)).made = q.made + 1 := by
  obtain ⟨hroom, hbytes, rfl⟩ := create_eq_ok_iff.mp hcreated
  refine ⟨?_, ?_⟩
  · simp only [entries, Census.call, beside_create hroom hbytes, perform,
      create_of_room hroom hbytes]
    exact List.zip_append hq.length
  · simp only [Census.call, perform, create_of_room hroom hbytes]

-- A new stream has the next number, and its handle tells it.
theorem Inv.toNat_id_of_created (hq : q.Inv) {bytes : Nat} {h : Handle}
    (hcreated : (q.device.create bytes).1 = .ok h) : h.id.toNat = q.made % handleLimit := by
  obtain ⟨-, -, rfl⟩ := create_eq_ok_iff.mp hcreated
  rw [hq.next]
  exact UInt32.toNat_ofNat'

/-- Among young streams the next handle is one that no stream has. -/
theorem Inv.handle_ne (hq : q.Inv) (hyoung : q.Young) {s : Stream} (hs : s ∈ q.device.streams) :
    s.handle ≠ ⟨q.device.nextId⟩ := by
  rw [← hq.map_snd_entries] at hs
  obtain ⟨e, he, rfl⟩ := List.mem_map.mp hs
  rw [hq.handle e he, hq.next, Ne, handle_ofNat_eq_iff]
  intro hmod
  have hlt := hq.lt e he
  have hnumber := number_eq_of_modEq hmod (by omega) (hyoung e he)
  omega

/-- The streams are numbered in the order in which they are created, and the handle of a stream is its
number modulo `handleLimit`.  As long as no live stream is `handleLimit` creations old, it names this
stream and no other, and a call on it leaves everything alone but the stream and what `Leaves` does
not fix: the level, and the number of workers. -/
theorem handles_name_streams (capabilities : Capabilities) (period : Option Duration)
    (cs : List Call) :
    let q := (begin capabilities period).run cs
    q.device = cs.foldl (fun d c => (d.perform c).2) (.new capabilities period) ∧
    q.entries.map Prod.snd = q.device.streams ∧
    (q.entries.map Prod.fst).Nodup ∧
    (∀ bytes h, (q.device.create bytes).1 = .ok h → h.id.toNat = q.made % handleLimit ∧
      (q.call (.create bytes)).entries = q.entries ++ [(q.made, ⟨h, bytes, none, none⟩)] ∧
        (q.call (.create bytes)).made = q.made + 1) ∧
    (∀ e ∈ q.entries, e.1 < q.made ∧ e.2.handle.id.toNat = e.1 % handleLimit) ∧
    (∀ e ∈ q.entries, ∀ e' ∈ q.entries,
      e.2.handle = e'.2.handle ↔ e.1 ≡ e'.1 [MOD handleLimit]) ∧
    (q.Young →
      (q.device.streams.map (·.handle)).Nodup ∧
      (∀ bytes h, (q.device.create bytes).1 = .ok h → ∀ s ∈ q.device.streams, s.handle ≠ h) ∧
      ∀ c n s, c.handle? = some s.handle → (n, s) ∈ q.entries →
        q.device.stream? s.handle = some s ∧
        (∀ m t, m ≠ n → ((m, t) ∈ (q.call c).entries ↔ (m, t) ∈ q.entries)) ∧
        Leaves q.device c (q.call c).device) := by
  intro q
  have hq : q.Inv := (inv_begin capabilities period).run cs
  refine ⟨device_run _ cs, hq.map_snd_entries, hq.nodup,
    fun bytes h hcreated => ⟨hq.toNat_id_of_created hcreated, hq.entries_create hcreated⟩,
    fun e he => ⟨hq.lt e he, hq.toNat_id he⟩, fun e he e' he' => hq.handle_eq_iff he he',
    fun hyoung => ⟨hq.nodup_handles hyoung, ?_, ?_⟩⟩
  · intro bytes h hcreated s hs
    obtain ⟨-, -, rfl⟩ := create_eq_ok_iff.mp hcreated
    exact hq.handle_ne hyoung hs
  · intro c n s hc he
    exact ⟨hq.stream?_handle hyoung he, fun m t => hq.mem_entries_call_iff hyoung hc he,
      leaves q.device c⟩

-- A removal puts the third stream in the first place, and the next call still finds the second.
theorem handles_name_streams_of_moved :
    let q := (begin .linear none).run [.create 4, .create 8, .create 12, .destroy ⟨0⟩]
    q.births = [2, 1] ∧ q.Young ∧ (2, ⟨⟨2⟩, 12, none, none⟩) ∈ q.entries ∧
      ((2, ⟨⟨2⟩, 12, none, none⟩) ∈ (q.call (.destroy ⟨1⟩)).entries) := by
  intro q
  have hyoung : q.Young := by unfold Young; decide
  have hmem : (2, ⟨⟨2⟩, 12, none, none⟩) ∈ q.entries := by decide
  obtain ⟨-, -, -, -, -, -, hnames⟩ := handles_name_streams .linear none
    [.create 4, .create 8, .create 12, .destroy ⟨0⟩]
  obtain ⟨-, hothers, -⟩ :=
    (hnames hyoung).2.2 (.destroy ⟨1⟩) 1 ⟨⟨1⟩, 8, none, none⟩ rfl (by decide)
  exact ⟨by decide, hyoung, hmem, (hothers 2 _ (by decide)).mpr hmem⟩

/-! ## 5. Streams that grow old -/

/-- A device whose first stream is alone again after so many have been created. -/
def alone (made : Nat) : Census where
  device := { new .linear none with nextId := UInt32.ofNat made, streams := [⟨⟨0⟩, 4, none, none⟩] }
  births := [0]
  made

/-- The same device with one more stream. -/
def joined (made : Nat) : Census where
  device := { new .linear none with
    nextId := UInt32.ofNat made + 1
    streams := [⟨⟨0⟩, 4, none, none⟩, ⟨⟨UInt32.ofNat made⟩, 4, none, none⟩] }
  births := [0, made]
  made := made + 1

/-- Creates another stream and gives it up, as often as told. -/
def churn : Nat → List Call
  | 0 => []
  | k + 1 => churn k ++ [.create 4, .destroy ⟨UInt32.ofNat (k + 1)⟩]

theorem call_create_alone (made : Nat) : (alone made).call (.create 4) = joined made := rfl

theorem call_destroy_joined {made : Nat} (hne : (⟨0⟩ : Handle) ≠ ⟨UInt32.ofNat made⟩) :
    (joined made).call (.destroy ⟨UInt32.ofNat made⟩) = alone (made + 1) := by
  have hplace : (joined made).device.place? ⟨UInt32.ofNat made⟩ = some 1 := by
    unfold place? joined
    rw [List.findIdx?_cons, if_neg (by simpa using hne), List.findIdx?_cons,
      if_pos (beq_self_eq_true _)]
    rfl
  unfold call
  rw [beside_destroy hplace]
  simp only [perform, destroy_of_place hplace rfl]
  exact Census.mk.injEq .. |>.mpr ⟨by simp [joined, swapRemove, monitorWithout], rfl, rfl⟩

theorem run_churn {k : Nat} (hk : k < handleLimit) :
    (alone 1).run (churn k) = alone (k + 1) := by
  induction k with
  | zero => rfl
  | succ k ih =>
    -- the second stream is not yet the first one's namesake
    have hne : (⟨0⟩ : Handle) ≠ ⟨UInt32.ofNat (k + 1)⟩ := fun h => by
      have hmod := (handle_ofNat_eq_iff 0 (k + 1)).mp h
      rw [Nat.ModEq, Nat.mod_eq_of_lt hk] at hmod
      cases hmod
    rw [churn, run, List.foldl_append]
    change (((alone 1).run (churn k)).call (.create 4)).call (.destroy _) = _
    rw [ih (Nat.lt_of_succ_lt hk), call_create_alone, call_destroy_joined hne]

/-- A run that ends with the stream that is created last beside the first. -/
def outlived (k : Nat) : List Call := .create 4 :: churn k ++ [.create 4]

theorem run_outlived {k : Nat} (hk : k < handleLimit) :
    (begin .linear none).run (outlived k) = joined (k + 1) := by
  have hfirst : (begin .linear none).call (.create 4) = alone 1 := rfl
  rw [outlived, run, List.cons_append, List.foldl_cons, List.foldl_append, hfirst]
  change ((alone 1).run (churn k)).call (.create 4) = _
  rw [run_churn hk, call_create_alone]

/-- The first stream outlives all others but the last one.  The two have the same handle, and giving
up the last one gives up the first.  And whatever stream a level is meant for, it replaces the one
that was set before. -/
theorem handles_repeat :
    let q := (begin .linear none).run (outlived 4294967295)
    let d := ((begin .linear none).run [.create 4, .create 4, .setGain ⟨0⟩ ⟨10⟩]).device
    q.device.streams.map (·.handle) = [⟨0⟩, ⟨0⟩] ∧ q.births = [0, 4294967296] ∧
      (q.call (.destroy ⟨0⟩)).births = [4294967296] ∧
      d.monitor.gain = ⟨10⟩ ∧ (d.perform (.setGain ⟨1⟩ ⟨20⟩)).2.monitor.gain = ⟨20⟩ := by
  have hrun : (begin .linear none).run (outlived 4294967295) = joined 4294967296 :=
    run_outlived (by decide)
  rw [hrun]
  exact ⟨by decide, by decide, by decide, by decide, by decide⟩

end Census

end Simulator

end Playout

import Playout.Json.Reader
import Playout.Json.Writer

/-!
# What is written can be read

The text of every value is read as this value, whatever characters its strings hold and however deep
it goes, and blanks around the text make no difference.
-/

namespace Playout

namespace Json

/-! ## 1. Blanks -/

theorem isBlank_of_isDigit {c : Char} (h : c.isDigit = true) : isBlank c = false := by
  rw [← Bool.not_eq_true]
  intro hblank
  simp only [isBlank, Bool.or_eq_true, beq_iff_eq] at hblank
  rcases hblank with ((rfl | rfl) | rfl) | rfl <;> cases h

theorem skipBlank_append {pre : List Char} (h : ∀ c ∈ pre, isBlank c = true) (cs : List Char) :
    skipBlank (pre ++ cs) = skipBlank cs :=
  List.dropWhile_append_of_pos h

theorem skipBlank_cons {c : Char} (h : isBlank c = false) (cs : List Char) :
    skipBlank (c :: cs) = c :: cs := by
  rw [skipBlank, List.dropWhile_cons_of_neg (by simp [h])]

theorem skipBlank_of_blank {cs : List Char} (h : ∀ c ∈ cs, isBlank c = true) :
    skipBlank cs = [] := by
  rw [← List.append_nil cs, skipBlank_append h]
  rfl

/-- Blanks before a value do not count. -/
theorem readValue_append {pre : List Char} (h : ∀ c ∈ pre, isBlank c = true) (fuel : Nat)
    (cs : List Char) : readValue fuel (pre ++ cs) = readValue fuel cs := by
  cases fuel with
  | zero => rfl
  | succ fuel => rw [readValue, skipBlank_append h, readValue]

/-! ## 2. Numbers -/

/-- The rest of a text after a number: nothing in it goes on with the number. -/
def Ends (rest : List Char) : Prop :=
  ∀ c ∈ rest.head?, c.isDigit = false ∧ c ≠ '.' ∧ c ≠ 'e' ∧ c ≠ 'E'

theorem ends_cons {c : Char} (h : c.isDigit = false ∧ c ≠ '.' ∧ c ≠ 'e' ∧ c ≠ 'E')
    (rest : List Char) : Ends (c :: rest) := by
  intro d hd
  cases hd
  exact h

theorem ends_of_blank {cs : List Char} (h : ∀ c ∈ cs, isBlank c = true) : Ends cs := by
  intro c hc
  have hblank := h c (List.mem_of_mem_head? hc)
  simp only [isBlank, Bool.or_eq_true, beq_iff_eq] at hblank
  rcases hblank with ((rfl | rfl) | rfl) | rfl <;> decide

theorem head?_toDigits {n : Nat} (hn : n ≠ 0) : (Nat.toDigits 10 n).head? ≠ some '0' := by
  induction n using Nat.strongRecOn with
  | ind n ih =>
    rw [Nat.toDigits_eq_if (by decide)]
    split
    next hlt =>
      intro h
      rw [List.head?_cons, Option.some_inj, Nat.digitChar_eq_zero] at h
      exact hn h
    next hge =>
      have hrest := ih (n / 10) (Nat.div_lt_self (Nat.pos_of_ne_zero hn) (by decide)) (by omega)
      rwa [List.head?_append, Option.or_of_isSome (by simp)]

theorem digits_append {ds rest : List Char} (hds : ∀ c ∈ ds, c.isDigit = true)
    (hrest : Ends rest) : digits (ds ++ rest) = (ds, rest) := by
  have hstop : rest.takeWhile Char.isDigit = [] ∧ rest.dropWhile Char.isDigit = rest := by
    cases rest with
    | nil => exact ⟨rfl, rfl⟩
    | cons c cs =>
      have hc := (hrest c rfl).1
      exact ⟨List.takeWhile_cons_of_neg (by simp [hc]), List.dropWhile_cons_of_neg (by simp [hc])⟩
  rw [digits, List.takeWhile_append_of_pos hds, List.dropWhile_append_of_pos hds, hstop.1, hstop.2,
    List.append_nil]

-- Only zero begins with a zero.
theorem toDigits_ne_zero_cons (n : Nat) (c : Char) (cs : List Char) :
    Nat.toDigits 10 n ≠ '0' :: c :: cs := by
  intro h
  by_cases hn : n = 0
  · rw [hn, Nat.toDigits_zero] at h
    cases h
  · exact head?_toDigits hn (by rw [h, List.head?_cons])

theorem readWhole_toDigits (n : Nat) {rest : List Char} (hrest : Ends rest) :
    readWhole (Nat.toDigits 10 n ++ rest) = some (Nat.toDigits 10 n, rest) := by
  have hall : ∀ c ∈ Nat.toDigits 10 n, c.isDigit = true := fun c hc =>
    Nat.isDigit_of_mem_toDigits (by decide) (by decide) hc
  have hdigits := digits_append hall hrest
  have hsome : someDigits (Nat.toDigits 10 n ++ rest) = some (Nat.toDigits 10 n, rest) := by
    rw [someDigits, hdigits]
    cases hds : Nat.toDigits 10 n with
    | nil => exact absurd hds Nat.toDigits_ne_nil
    | cons d ds => rfl
  rw [readWhole, hsome]
  split
  next c cs _ h =>
    rw [Option.some_inj, Prod.mk.injEq] at h
    exact absurd h.1 (toDigits_ne_zero_cons n c cs)
  next => rfl

theorem readUnsigned_toDigits (n : Nat) {rest : List Char} (hrest : Ends rest) :
    readUnsigned (Nat.toDigits 10 n ++ rest) = some (.number n, rest) := by
  have hfraction : readFraction rest = some (false, rest) := by
    unfold readFraction
    split
    next cs => exact absurd rfl (hrest '.' rfl).2.1
    next => rfl
  have hexponent : readExponent rest = some (false, rest) := by
    unfold readExponent
    split
    next cs => exact absurd rfl (hrest 'e' rfl).2.2.1
    next cs => exact absurd rfl (hrest 'E' rfl).2.2.2
    next => rfl
  have hvalue : ofDigits (Nat.toDigits 10 n) = n := Nat.ofDigitChars_ten_toDigits
  simp [readUnsigned, readWhole_toDigits n hrest, hfraction, hexponent, hvalue]

/-- The digits of a number are read as this number. -/
theorem readNumber_toDigits (n : Nat) {rest : List Char} (hrest : Ends rest) :
    readNumber (Nat.toDigits 10 n ++ rest) = some (.number n, rest) := by
  have hread := readUnsigned_toDigits n hrest
  unfold readNumber
  split
  next cs heq =>
    -- no digit is a sign
    have hmem : '-' ∈ Nat.toDigits 10 n := by
      cases hds : Nat.toDigits 10 n with
      | nil => exact absurd hds Nat.toDigits_ne_nil
      | cons d ds =>
        rw [hds] at heq
        cases heq
        exact List.mem_cons_self
    exact absurd (Nat.isDigit_of_mem_toDigits (by decide) (by decide) hmem) (by decide)
  next => exact hread

/-- A lone zero with a sign is a number, though not a natural one. -/
theorem readNumber_minus_zero {rest : List Char} (hrest : Ends rest) :
    readNumber ('-' :: '0' :: rest) = some (.otherNumber, rest) := by
  have hzero := readUnsigned_toDigits 0 hrest
  rw [Nat.toDigits_zero] at hzero
  rw [readNumber, show '0' :: rest = ['0'] ++ rest from rfl, hzero]
  rfl

/-! ## 3. Strings -/

/-- The piece that an escaped character is read as. -/
def pieceOf (c : Char) : Piece :=
  if c.toNat < 32 ∧ c ∉ ['\n', '\r', '\t', '\x08', '\x0c'] then .unit c.toNat else .char c

theorem hexValue4?_hexDigit :
    ∀ n < 32, hexValue4? '0' '0' (hexDigit (n / 16)) (hexDigit (n % 16)) = some n := by
  decide

section

variable (cs : List Char)

theorem readPieces_letter {l c : Char} (h : unescape? l = some c) (hl : l ≠ 'u') :
    readPieces ('\\' :: l :: cs) = (readPieces cs).map fun r => (.char c :: r.1, r.2) := by
  simp [readPieces, h, hl]
  cases readPieces cs <;> rfl

theorem readPieces_number {a b c d : Char} {n : Nat} (h : hexValue4? a b c d = some n) :
    readPieces ('\\' :: 'u' :: a :: b :: c :: d :: cs) =
      (readPieces cs).map fun r => (.unit n :: r.1, r.2) := by
  simp only [readPieces, h]
  cases readPieces cs <;> rfl

theorem readPieces_plain {c : Char} (hquote : c ≠ '"') (hback : c ≠ '\\')
    (hplain : ¬ c.toNat < 32) :
    readPieces (c :: cs) = (readPieces cs).map fun r => (.char c :: r.1, r.2) := by
  simp [readPieces, hback, hplain]
  cases readPieces cs <;> rfl

/-- An escaped character is read as one piece. -/
theorem readPieces_escape (c : Char) :
    readPieces (escape c ++ cs) = (readPieces cs).map fun r => (pieceOf c :: r.1, r.2) := by
  -- the seven characters that are escaped by a letter
  have hletter : ∀ l d : Char, unescape? l = some d → l ≠ 'u' → pieceOf d = .char d →
      readPieces (['\\', l] ++ cs) = (readPieces cs).map fun r => (pieceOf d :: r.1, r.2) := by
    intro l d hd hl hpiece
    rw [hpiece]
    exact readPieces_letter cs hd hl
  unfold escape
  split
  next h => exact h ▸ hletter '"' '"' rfl (by decide) (by decide)
  next hquote =>
  split
  next h => exact h ▸ hletter '\\' '\\' rfl (by decide) (by decide)
  next hback =>
  split
  next h => exact h ▸ hletter 'n' '\n' rfl (by decide) (by decide)
  next hn =>
  split
  next h => exact h ▸ hletter 'r' '\r' rfl (by decide) (by decide)
  next hr =>
  split
  next h => exact h ▸ hletter 't' '\t' rfl (by decide) (by decide)
  next ht =>
  split
  next h => exact h ▸ hletter 'b' '\x08' rfl (by decide) (by decide)
  next hb =>
  split
  next h => exact h ▸ hletter 'f' '\x0c' rfl (by decide) (by decide)
  next hf =>
  split
  next hlow =>
    have hpiece : pieceOf c = .unit c.toNat := if_pos ⟨hlow, by simp [hn, hr, ht, hb, hf]⟩
    rw [hpiece]
    exact readPieces_number cs (hexValue4?_hexDigit _ hlow)
  next hplain =>
    have hpiece : pieceOf c = .char c := if_neg fun h => hplain h.1
    rw [hpiece]
    exact readPieces_plain cs hquote hback hplain

theorem readPieces_flatMap (s : List Char) :
    readPieces (s.flatMap escape ++ '"' :: cs) = some (s.map pieceOf, cs) := by
  induction s with
  | nil => simp [readPieces]
  | cons c s ih => rw [List.flatMap_cons, List.append_assoc, readPieces_escape, ih]; rfl

end

-- A number below the surrogates is a character by itself.
theorem decodePieces_unit {n : Nat} (hn : n < 32) (ps : List Piece) :
    decodePieces (.unit n :: ps) = (decodePieces ps).map (Char.ofNat n :: ·) := by
  have hhigh : isHighSurrogate n = false := decide_eq_false (by omega)
  have hlow : isLowSurrogate n = false := decide_eq_false (by omega)
  cases ps with
  | nil => simp [decodePieces, hhigh, hlow]
  | cons p ps => cases p <;> simp [decodePieces, hhigh, hlow]

theorem decodePieces_map (s : List Char) : decodePieces (s.map pieceOf) = some s := by
  induction s with
  | nil => rfl
  | cons c s ih =>
    rw [List.map_cons, pieceOf]
    split
    next h => rw [decodePieces_unit h.1, ih, Option.map_some, Char.ofNat_toNat]
    next => rw [decodePieces, ih, Option.map_some]

/-- Every string is read back, with all its characters, and so is one that has no text. -/
theorem readText_writeKey (k : Option String) (rest : List Char) :
    ∃ cs, writeKey k ++ rest = '"' :: cs ∧ readText cs = some (k, rest) := by
  cases k with
  | some s =>
    refine ⟨s.toList.flatMap escape ++ '"' :: rest, by simp [writeKey, quote], ?_⟩
    rw [readText, readPieces_flatMap, Option.map_some]
    dsimp only
    rw [decodePieces_map, Option.map_some, String.ofList_toList]
  | none =>
    have hvalue : hexValue4? 'd' '8' '0' '0' = some 0xd800 := by decide
    have hpieces := readPieces_number ('"' :: rest) hvalue
    refine ⟨'\\' :: 'u' :: 'd' :: '8' :: '0' :: '0' :: '"' :: rest, rfl, ?_⟩
    rw [readText, hpieces]
    rfl

/-! ## 4. Values -/

theorem write_number (n : Nat) : (number n).write = Nat.toDigits 10 n := by
  rw [write, Nat.toString_eq_repr, Nat.toList_repr]

/-- A text begins with a character that is not blank and closes nothing. -/
theorem write_eq_cons (v : Json) :
    ∃ c cs, v.write = c :: cs ∧ isBlank c = false ∧ c ≠ ']' := by
  cases v with
  | null => exact ⟨'n', _, rfl, by decide, by decide⟩
  | bool b => cases b <;> exact ⟨_, _, rfl, by decide, by decide⟩
  | number n =>
    cases hds : Nat.toDigits 10 n with
    | nil => exact absurd hds Nat.toDigits_ne_nil
    | cons d ds =>
      have hdigit : d.isDigit = true :=
        Nat.isDigit_of_mem_toDigits (b := 10) (n := n) (by decide) (by decide) (by simp [hds])
      refine ⟨d, ds, (write_number n).trans hds, isBlank_of_isDigit hdigit, ?_⟩
      rintro rfl
      cases hdigit
  | otherNumber => exact ⟨'-', _, rfl, by decide, by decide⟩
  | text s => exact ⟨'"', _, rfl, by decide, by decide⟩
  | brokenText => exact ⟨'"', _, rfl, by decide, by decide⟩
  | list items => exact ⟨'[', _, rfl, by decide, by decide⟩
  | record members => exact ⟨'\x7b', _, rfl, by decide, by decide⟩

theorem writeItems_eq_cons (v : Json) (items : List Json) :
    ∃ c cs, writeItems (v :: items) = c :: cs ∧ isBlank c = false ∧ c ≠ ']' := by
  obtain ⟨c, cs, hcons, hblank, hclose⟩ := v.write_eq_cons
  cases items with
  | nil => exact ⟨c, cs ++ [']'], by rw [writeItems, hcons, List.cons_append], hblank, hclose⟩
  | cons w items =>
    exact ⟨c, cs ++ ',' :: writeItems (w :: items), by rw [writeItems, hcons, List.cons_append],
      hblank, hclose⟩

theorem writeMembers_eq_cons (m : Option String × Json) (members : List (Option String × Json)) :
    ∃ cs, writeMembers (m :: members) = '"' :: cs := by
  obtain ⟨k, v⟩ := m
  have hkey : ∃ cs, writeKey k = '"' :: cs := by cases k <;> exact ⟨_, rfl⟩
  obtain ⟨cs, hkey⟩ := hkey
  cases members with
  | nil => exact ⟨_, by rw [writeMembers, hkey, List.cons_append, List.cons_append]⟩
  | cons w members => exact ⟨_, by rw [writeMembers, hkey, List.cons_append, List.cons_append]⟩

theorem ends_comma (cs : List Char) : Ends (',' :: cs) := ends_cons (by decide) cs

theorem ends_bracket (cs : List Char) : Ends (']' :: cs) := ends_cons (by decide) cs

theorem ends_brace (cs : List Char) : Ends ('\x7d' :: cs) := ends_cons (by decide) cs

theorem readValue_of_sign {c : Char} (h : c.isDigit = true ∨ c = '-') (cs : List Char)
    (fuel : Nat) : readValue (fuel + 1) (c :: cs) = readNumber (c :: cs) := by
  have hblank : isBlank c = false := by
    rcases h with h | rfl
    · exact isBlank_of_isDigit h
    · decide
  rw [readValue, skipBlank_cons hblank]
  -- the six characters that begin other values are neither
  split
  all_goals first
    | rfl
    | (rename_i heq; cases heq; exact absurd h (by decide))

theorem readValue_number (n fuel : Nat) {rest : List Char} (hrest : Ends rest) :
    readValue (fuel + 1) ((number n).write ++ rest) = some (.number n, rest) := by
  have hread := readNumber_toDigits n hrest
  rw [write_number]
  cases hds : Nat.toDigits 10 n with
  | nil => exact absurd hds Nat.toDigits_ne_nil
  | cons d ds =>
    have hdigit : d.isDigit = true :=
      Nat.isDigit_of_mem_toDigits (b := 10) (n := n) (by decide) (by decide) (by simp [hds])
    rw [hds] at hread
    exact (readValue_of_sign (.inl hdigit) _ fuel).trans hread

theorem readValue_key (k : Option String) (fuel : Nat) (rest : List Char) :
    readValue (fuel + 1) (writeKey k ++ rest) = some (ofText k, rest) := by
  obtain ⟨cs, hkey, hread⟩ := readText_writeKey k rest
  rw [hkey, readValue, skipBlank_cons (by decide)]
  simp [hread]

-- A member is read with its key, if its value is read.
theorem readMember_of_readValue (k : Option String) {v : Json} {fuel : Nat} {cs rest : List Char}
    (hv : readValue fuel cs = some (v, rest)) :
    readMember (fuel + 1) (writeKey k ++ ':' :: cs) = some ((k, v), rest) := by
  obtain ⟨ds, hkey, hread⟩ := readText_writeKey k (':' :: cs)
  rw [hkey, readMember, skipBlank_cons (by decide)]
  simp only [hread, skipBlank_cons (c := ':') (by decide), hv, Option.map_some]

mutual

theorem readValue_write (v : Json) (fuel : Nat) (hfuel : 3 * v.write.length ≤ fuel)
    (rest : List Char) (hrest : Ends rest) :
    readValue fuel (v.write ++ rest) = some (v, rest) := by
  obtain ⟨c, cs, hcons, -, -⟩ := write_eq_cons v
  obtain ⟨fuel, rfl⟩ : ∃ n, fuel = n + 1 := by
    refine ⟨fuel - 1, ?_⟩
    rw [hcons, List.length_cons] at hfuel
    omega
  cases v with
  | null => rfl
  | bool b => cases b <;> rfl
  | number n => exact readValue_number n fuel hrest
  | otherNumber => exact (readValue_of_sign (.inr rfl) _ fuel).trans (readNumber_minus_zero hrest)
  | text s => exact readValue_key (some s) fuel rest
  | brokenText => exact readValue_key none fuel rest
  | list items =>
    cases items with
    | nil => rfl
    | cons v items =>
      have hitems := readItems_write (v :: items) (List.cons_ne_nil _ _) fuel (by
        rw [write, List.length_cons] at hfuel
        omega) rest
      obtain ⟨d, ds, hd, hblank, hclose⟩ := writeItems_eq_cons v items
      rw [write, List.cons_append, readValue, skipBlank_cons (by decide)]
      rw [hd, List.cons_append] at hitems ⊢
      simp only [skipBlank_cons hblank]
      split
      next heq =>
        cases heq
        exact absurd rfl hclose
      next =>
        rw [hitems]
        rfl
  | record members =>
    cases members with
    | nil => rfl
    | cons m members =>
      have hmembers := readMembers_write (m :: members) (List.cons_ne_nil _ _) fuel (by
        rw [write, List.length_cons] at hfuel
        omega) rest
      obtain ⟨ds, hd⟩ := writeMembers_eq_cons m members
      rw [write, List.cons_append, readValue, skipBlank_cons (by decide)]
      rw [hd, List.cons_append] at hmembers ⊢
      simp only [skipBlank_cons (c := '"') (by decide)]
      split
      next heq => cases heq
      next =>
        rw [hmembers]
        rfl

theorem readItems_write (items : List Json) (hne : items ≠ []) (fuel : Nat)
    (hfuel : 3 * (writeItems items).length ≤ fuel) (rest : List Char) :
    readItems fuel (writeItems items ++ rest) = some (items, rest) := by
  match items with
  | [] => exact absurd rfl hne
  | [v] =>
    rw [writeItems, List.length_append, List.length_singleton] at hfuel
    obtain ⟨fuel, rfl⟩ : ∃ n, fuel = n + 1 := ⟨fuel - 1, by omega⟩
    have hv := readValue_write v fuel (by omega) (']' :: rest) (ends_bracket rest)
    rw [writeItems, List.append_assoc, readItems, List.singleton_append, hv]
    simp only [skipBlank_cons (c := ']') (by decide)]
  | v :: w :: items =>
    rw [writeItems, List.length_append, List.length_cons] at hfuel
    obtain ⟨fuel, rfl⟩ : ∃ n, fuel = n + 1 := ⟨fuel - 1, by omega⟩
    have hv := readValue_write v fuel (by omega) (',' :: (writeItems (w :: items) ++ rest))
      (ends_comma _)
    have hitems := readItems_write (w :: items) (List.cons_ne_nil _ _) fuel (by omega) rest
    rw [writeItems, List.append_assoc, List.cons_append, readItems, hv]
    simp only [skipBlank_cons (c := ',') (by decide), hitems, Option.map_some]

theorem readMembers_write (members : List (Option String × Json)) (hne : members ≠ [])
    (fuel : Nat) (hfuel : 3 * (writeMembers members).length ≤ fuel) (rest : List Char) :
    readMembers fuel (writeMembers members ++ rest) = some (members, rest) := by
  match members with
  | [] => exact absurd rfl hne
  | [(k, v)] =>
    simp only [writeMembers, List.length_append, List.length_cons, List.length_nil] at hfuel
    obtain ⟨fuel, rfl⟩ : ∃ n, fuel = n + 2 := ⟨fuel - 2, by omega⟩
    have hv := readValue_write v fuel (by omega) ('\x7d' :: rest) (ends_brace rest)
    simp only [writeMembers, List.append_assoc, List.cons_append, List.nil_append]
    rw [readMembers, readMember_of_readValue k hv]
    simp only [skipBlank_cons (c := '\x7d') (by decide)]
  | (k, v) :: m :: members =>
    simp only [writeMembers, List.length_append, List.length_cons] at hfuel
    obtain ⟨fuel, rfl⟩ : ∃ n, fuel = n + 2 := ⟨fuel - 2, by omega⟩
    have hv := readValue_write v fuel (by omega) (',' :: (writeMembers (m :: members) ++ rest))
      (ends_comma _)
    have hmembers := readMembers_write (m :: members) (List.cons_ne_nil _ _) (fuel + 1)
      (by omega) rest
    simp only [writeMembers, List.append_assoc, List.cons_append]
    rw [readMembers, readMember_of_readValue k hv]
    simp only [skipBlank_cons (c := ',') (by decide), hmembers, Option.map_some]

end

/-- The text of a value, with blanks around it, says this value. -/
theorem parse?_render (v : Json) {pre post : String} (hpre : ∀ c ∈ pre.toList, isBlank c = true)
    (hpost : ∀ c ∈ post.toList, isBlank c = true) : parse? (pre ++ v.render ++ post) = some v := by
  have htext : (pre ++ v.render ++ post).toList = pre.toList ++ (v.write ++ post.toList) := by
    simp [render]
  have hread : readValue (enoughFuel (pre ++ v.render ++ post).toList)
      (pre ++ v.render ++ post).toList = some (v, post.toList) := by
    rw [htext, readValue_append hpre]
    refine readValue_write v _ ?_ _ (ends_of_blank hpost)
    simp only [enoughFuel, List.length_append]
    omega
  rw [parse?, hread]
  simp [skipBlank_of_blank hpost]

end Json

end Playout

/-!
# JSON values

A `Json` value is what a text in that notation says, as far as the records of this library care.
They hold natural numbers and words only, so every other number is one value, `otherNumber`, and
every string with an unpaired surrogate is one value, `brokenText`.  Members keep their order and
their repetitions, because a reader may have to refuse a repeated one.
-/

namespace Playout

/-- What a JSON text says. -/
inductive Json where
  | null
  | bool (b : Bool)
  -- A number written with digits alone.
  | number (n : Nat)
  -- A number with a sign, a fraction or an exponent.
  | otherNumber
  | text (s : String)
  -- A string whose escapes do not make up characters.
  | brokenText
  | list (items : List Json)
  -- Members in order; a key whose escapes do not make up characters has no text.
  | record (members : List (Option String × Json))
deriving Repr, Inhabited

end Playout

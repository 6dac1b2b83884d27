import Playout.Json.Basic

/-!
# Reading JSON

`Json.parse?` reads exactly one value with blanks around it.  The reader goes through a list of
characters and gives back what is left; every number and every string that the notation allows is
accepted, whatever it stands for.
-/

namespace Playout

namespace Json

def isBlank (c : Char) : Bool := c == ' ' || c == '\t' || c == '\n' || c == '\r'

/-- What is left after blank space. -/
def skipBlank (cs : List Char) : List Char := cs.dropWhile isBlank

/-! ## 1. Numbers -/

/-- The digits at the front, and what is left. -/
def digits (cs : List Char) : List Char × List Char :=
  (cs.takeWhile Char.isDigit, cs.dropWhile Char.isDigit)

def ofDigits (ds : List Char) : Nat := ds.foldl (fun n d => 10 * n + (d.toNat - 48)) 0

def someDigits (cs : List Char) : Option (List Char × List Char) :=
  match digits cs with
  | ([], _) => none
  | (ds, rest) => some (ds, rest)

/-- A whole number: digits without a leading zero, or zero alone. -/
def readWhole (cs : List Char) : Option (List Char × List Char) :=
  match someDigits cs with
  | some ('0' :: _ :: _, _) => none
  | r => r

/-- The part after a point, if there is one; answers whether there is. -/
def readFraction : List Char → Option (Bool × List Char)
  | '.' :: cs => (someDigits cs).map fun r => (true, r.2)
  | cs => some (false, cs)

/-- A sign before the digits of an exponent. -/
def skipSign : List Char → List Char
  | '+' :: cs | '-' :: cs => cs
  | cs => cs

/-- The exponent, if there is one; answers whether there is. -/
def readExponent : List Char → Option (Bool × List Char)
  | 'e' :: cs | 'E' :: cs => (someDigits (skipSign cs)).map fun r => (true, r.2)
  | cs => some (false, cs)

def readUnsigned (cs : List Char) : Option (Json × List Char) := do
  let (whole, cs) ← readWhole cs
  let (fraction, cs) ← readFraction cs
  let (exponent, cs) ← readExponent cs
  some (if fraction || exponent then .otherNumber else .number (ofDigits whole), cs)

def readNumber : List Char → Option (Json × List Char)
  | '-' :: cs => (readUnsigned cs).map fun r => (.otherNumber, r.2)
  | cs => readUnsigned cs

/-! ## 2. Strings -/

def hexValue? (c : Char) : Option Nat :=
  if '0' ≤ c ∧ c ≤ '9' then some (c.toNat - 48)
  else if 'a' ≤ c ∧ c ≤ 'f' then some (c.toNat - 87)
  else if 'A' ≤ c ∧ c ≤ 'F' then some (c.toNat - 55)
  else none

def hexValue4? (a b c d : Char) : Option Nat := do
  some ((((← hexValue? a) * 16 + (← hexValue? b)) * 16 + (← hexValue? c)) * 16 + (← hexValue? d))

/-- The character that a letter after a backslash stands for. -/
def unescape? : Char → Option Char
  | '"' => some '"'
  | '\\' => some '\\'
  | '/' => some '/'
  | 'b' => some '\x08'
  | 'f' => some '\x0c'
  | 'n' => some '\n'
  | 'r' => some '\r'
  | 't' => some '\t'
  | _ => none

/-- A piece of a string. -/
inductive Piece where
  -- A character, written out or escaped by a letter.
  | char (c : Char)
  -- Sixteen bits, escaped by their number.
  | unit (n : Nat)
deriving DecidableEq, Repr

/-- The pieces of a string up to its closing quote. -/
def readPieces : List Char → Option (List Piece × List Char)
  | '"' :: cs => some ([], cs)
  | '\\' :: 'u' :: a :: b :: c :: d :: cs => do
    let n ← hexValue4? a b c d
    let (ps, rest) ← readPieces cs
    some (.unit n :: ps, rest)
  | '\\' :: c :: cs => do
    let c ← unescape? c
    let (ps, rest) ← readPieces cs
    some (.char c :: ps, rest)
  | c :: cs =>
    if c.toNat < 32 then none
    else do
      let (ps, rest) ← readPieces cs
      some (.char c :: ps, rest)
  | [] => none

def isHighSurrogate (n : Nat) : Bool := decide (0xD800 ≤ n ∧ n < 0xDC00)

def isLowSurrogate (n : Nat) : Bool := decide (0xDC00 ≤ n ∧ n < 0xE000)

/-- The characters that pieces make up: two surrogates that follow each other make one, and none may
stand alone. -/
def decodePieces : List Piece → Option (List Char)
  | [] => some []
  | .char c :: ps => (decodePieces ps).map (c :: ·)
  | .unit n :: .unit m :: ps =>
    if isHighSurrogate n then
      if isLowSurrogate m then
        (decodePieces ps).map (Char.ofNat (0x10000 + (n - 0xD800) * 0x400 + (m - 0xDC00)) :: ·)
      else none
    else if isLowSurrogate n then none
    else (decodePieces (.unit m :: ps)).map (Char.ofNat n :: ·)
  | .unit n :: ps =>
    if isHighSurrogate n || isLowSurrogate n then none
    else (decodePieces ps).map (Char.ofNat n :: ·)

/-- The text of a string after its opening quote, and what is left. -/
def readText (cs : List Char) : Option (Option String × List Char) :=
  (readPieces cs).map fun (ps, rest) => ((decodePieces ps).map String.ofList, rest)

/-! ## 3. Values -/

/-- What is left after a given word. -/
def expect (word : List Char) (cs : List Char) : Option (List Char) :=
  match word, cs with
  | [], cs => some cs
  | w :: word, c :: cs => if c = w then expect word cs else none
  | _ :: _, [] => none

def ofText : Option String → Json
  | some s => .text s
  | none => .brokenText

mutual

/-- A value with blank space before it.  The fuel bounds the depth of the recursion. -/
def readValue : Nat → List Char → Option (Json × List Char)
  | 0, _ => none
  | fuel + 1, cs =>
    match skipBlank cs with
    | 'n' :: cs => (expect "ull".toList cs).map fun rest => (.null, rest)
    | 't' :: cs => (expect "rue".toList cs).map fun rest => (.bool true, rest)
    | 'f' :: cs => (expect "alse".toList cs).map fun rest => (.bool false, rest)
    | '"' :: cs => (readText cs).map fun (s, rest) => (ofText s, rest)
    | '[' :: cs =>
      match skipBlank cs with
      | ']' :: rest => some (.list [], rest)
      | cs => (readItems fuel cs).map fun (vs, rest) => (.list vs, rest)
    | '\x7b' :: cs =>
      match skipBlank cs with
      | '\x7d' :: rest => some (.record [], rest)
      | cs => (readMembers fuel cs).map fun (ms, rest) => (.record ms, rest)
    | cs => readNumber cs

/-- One or more items up to the closing bracket. -/
def readItems : Nat → List Char → Option (List Json × List Char)
  | 0, _ => none
  | fuel + 1, cs =>
    match readValue fuel cs with
    | none => none
    | some (v, cs) =>
      match skipBlank cs with
      | ',' :: cs => (readItems fuel cs).map fun (vs, rest) => (v :: vs, rest)
      | ']' :: rest => some ([v], rest)
      | _ => none

/-- One or more members up to the closing brace. -/
def readMembers : Nat → List Char → Option (List (Option String × Json) × List Char)
  | 0, _ => none
  | fuel + 1, cs =>
    match readMember fuel cs with
    | none => none
    | some (m, cs) =>
      match skipBlank cs with
      | ',' :: cs => (readMembers fuel cs).map fun (ms, rest) => (m :: ms, rest)
      | '\x7d' :: rest => some ([m], rest)
      | _ => none

def readMember : Nat → List Char → Option ((Option String × Json) × List Char)
  | 0, _ => none
  | fuel + 1, cs =>
    match skipBlank cs with
    | '"' :: cs =>
      match readText cs with
      | none => none
      | some (key, cs) =>
        match skipBlank cs with
        | ':' :: cs => (readValue fuel cs).map fun (v, rest) => ((key, v), rest)
        | _ => none
    | _ => none

end

/-- More recursion than any value in the text can need: three levels for each character. -/
def enoughFuel (cs : List Char) : Nat := 3 * cs.length + 3

/-- The value that a text says, with nothing but blank space around it. -/
def parse? (s : String) : Option Json :=
  match readValue (enoughFuel s.toList) s.toList with
  | some (v, rest) => if skipBlank rest = [] then some v else none
  | none => none

end Json

end Playout

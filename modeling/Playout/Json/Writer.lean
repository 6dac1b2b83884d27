import Playout.Json.Basic

/-!
# Writing JSON

The compact text of a value: no blanks, members in order.  Characters that cannot stand in a string
are escaped, the common ones by a letter and the others by their number.
-/

namespace Playout

namespace Json

/-- A hexadecimal digit in lower case. -/
def hexDigit (n : Nat) : Char :=
  if n < 10 then Char.ofNat (48 + n) else Char.ofNat (87 + n)

def escape (c : Char) : List Char :=
  if c = '"' then ['\\', '"']
  else if c = '\\' then ['\\', '\\']
  else if c = '\n' then ['\\', 'n']
  else if c = '\r' then ['\\', 'r']
  else if c = '\t' then ['\\', 't']
  else if c = '\x08' then ['\\', 'b']
  else if c = '\x0c' then ['\\', 'f']
  else if c.toNat < 32 then ['\\', 'u', '0', '0', hexDigit (c.toNat / 16), hexDigit (c.toNat % 16)]
  else [c]

def quote (s : String) : List Char := '"' :: s.toList.flatMap escape ++ ['"']

/-- The shortest string whose escapes do not make up characters. -/
def brokenQuote : List Char := '"' :: '\\' :: "ud800".toList ++ ['"']

def writeKey : Option String → List Char
  | some s => quote s
  | none => brokenQuote

mutual

def write : Json → List Char
  | .null => "null".toList
  | .bool true => "true".toList
  | .bool false => "false".toList
  | .number n => (toString n).toList
  | .otherNumber => "-0".toList
  | .text s => quote s
  | .brokenText => brokenQuote
  | .list items => '[' :: writeItems items
  | .record members => '\x7b' :: writeMembers members

/-- The items of a list up to its closing bracket. -/
def writeItems : List Json → List Char
  | [] => [']']
  | [v] => v.write ++ [']']
  | v :: w :: rest => v.write ++ ',' :: writeItems (w :: rest)

/-- The members of a record up to its closing brace. -/
def writeMembers : List (Option String × Json) → List Char
  | [] => ['\x7d']
  | [(k, v)] => writeKey k ++ ':' :: v.write ++ ['\x7d']
  | (k, v) :: m :: rest => writeKey k ++ ':' :: v.write ++ ',' :: writeMembers (m :: rest)

end

/-- The compact text of a value. -/
def render (v : Json) : String := String.ofList v.write

end Json

end Playout

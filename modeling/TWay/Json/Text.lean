/-!
# Strings in JSON

The characters between the quotes of a JSON string. An escape with four hexadecimal digits stands
for one unit of UTF-16, so that two of them can be the halves of one character.
-/

namespace TWay.Json

/-- A character, or half of one. -/
inductive Piece where
  | char (c : Char)
  | half (unit : Nat)

/-- The number that a hexadecimal digit of either case denotes. -/
def hexDigit? (c : Char) : Option Nat :=
  if '0' ≤ c ∧ c ≤ '9' then some (c.toNat - '0'.toNat)
  else if 'a' ≤ c ∧ c ≤ 'f' then some (c.toNat - 'a'.toNat + 10)
  else if 'A' ≤ c ∧ c ≤ 'F' then some (c.toNat - 'A'.toNat + 10)
  else none

/-- The number that hexadecimal digits denote. -/
def hexNumber? (digits : List Char) : Option Nat :=
  digits.foldlM (fun n c => (16 * n + ·) <$> hexDigit? c) 0

/-- Whether a unit is no character by itself. -/
def isHalf (unit : Nat) : Bool := decide (0xd800 ≤ unit) && decide (unit < 0xe000)

/-- Whether a unit is the first half of a character. -/
def isHighHalf (unit : Nat) : Bool := decide (0xd800 ≤ unit) && decide (unit < 0xdc00)

/-- Whether a unit is the second half of a character. -/
def isLowHalf (unit : Nat) : Bool := decide (0xdc00 ≤ unit) && decide (unit < 0xe000)

/-- What one unit stands for. -/
def pieceOfUnit (unit : Nat) : Piece := if isHalf unit then .half unit else .char (Char.ofNat unit)

/-- The character of an escape by a letter or sign. -/
def escaped? : Char → Option Char
  | '"' => some '"'
  | '\\' => some '\\'
  | '/' => some '/'
  | 'b' => some '\x08'
  | 'f' => some '\x0c'
  | 'n' => some '\n'
  | 'r' => some '\r'
  | 't' => some '\t'
  | _ => none

/-- The pieces up to the closing quote, and what follows it. Control characters must be escaped. -/
def pieces? : List Char → Option (List Piece × List Char)
  | [] => none
  | '"' :: cs => some ([], cs)
  | '\\' :: 'u' :: a :: b :: c :: d :: cs => do
    let unit ← hexNumber? [a, b, c, d]
    let (pieces, rest) ← pieces? cs
    return (pieceOfUnit unit :: pieces, rest)
  | '\\' :: e :: cs => do
    let c ← escaped? e
    let (pieces, rest) ← pieces? cs
    return (.char c :: pieces, rest)
  | c :: cs => do
    if c < ' ' then none
    let (pieces, rest) ← pieces? cs
    return (.char c :: pieces, rest)

/-- The characters, if every half is followed by its other half. -/
def characters? : List Piece → Option (List Char)
  | [] => some []
  | .char c :: ps => (c :: ·) <$> characters? ps
  | .half high :: .half low :: ps =>
    if isHighHalf high && isLowHalf low then
      (Char.ofNat (0x10000 + (high - 0xd800) * 0x400 + (low - 0xdc00)) :: ·) <$> characters? ps
    else none
  | .half _ :: _ => none

/-- The string that starts behind an opening quote, and what follows its closing quote. -/
def readString? (cs : List Char) : Option (Option String × List Char) := do
  let (pieces, rest) ← pieces? cs
  return ((characters? pieces).map String.ofList, rest)

end TWay.Json

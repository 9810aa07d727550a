/-!
# Decimal numerals at the start of a text

A numeral is an optional sign, digits with an optional point among them or at either end, and an
optional exponent; a whole numeral is a sign and digits alone. `Numeral.scan?` and
`Numeral.scanWhole?` take the longest one that a text starts with, part by part, and
`Numeral.text` gives the characters taken.
-/

namespace TWay.Decimal

/-- The ten digits of ASCII. -/
def isDigit (c : Char) : Bool := decide ('0' ≤ c) && decide (c ≤ '9')

/-- The digits that a text starts with. -/
def leadingDigits (cs : List Char) : List Char := cs.takeWhile isDigit

/-- The sign that a text starts with, if any. -/
def leadingSign : List Char → List Char
  | '+' :: _ => ['+']
  | '-' :: _ => ['-']
  | _ => []

/-- The number that a row of digits denotes. -/
def ofDigits (digits : List Char) : Nat :=
  digits.foldl (fun n c => 10 * n + (c.toNat - '0'.toNat)) 0

/-- The parts of a numeral as they are written. -/
structure Numeral where
  /-- Empty, or one sign. -/
  sign : List Char
  /-- The digits before the point. -/
  whole : List Char
  /-- Empty, or the point and the digits behind it. -/
  fraction : List Char
  /-- Empty, or the mark of the exponent, its optional sign and its digits. -/
  exponent : List Char
deriving DecidableEq

namespace Numeral

/-- The characters of a numeral. -/
def text (n : Numeral) : List Char := n.sign ++ n.whole ++ n.fraction ++ n.exponent

/-- The point with the digits behind it, where a text starts so. -/
def leadingFraction : List Char → List Char
  | '.' :: cs => '.' :: leadingDigits cs
  | _ => []

/-- An exponent needs a digit: where none follows, its mark is not part of the numeral. -/
def leadingExponent : List Char → List Char
  | c :: cs =>
    let sign := leadingSign cs
    let digits := leadingDigits (cs.drop sign.length)
    if (c == 'e' || c == 'E') && !digits.isEmpty then c :: (sign ++ digits) else []
  | [] => []

/-- The longest whole numeral that a text starts with: a sign and digits (`numeric_prefix` without a
fraction). -/
def scanWhole? (cs : List Char) : Option Numeral :=
  let sign := leadingSign cs
  let whole := leadingDigits (cs.drop sign.length)
  if whole.isEmpty then none else some ⟨sign, whole, [], []⟩

/-- The longest numeral that a text starts with. It has a digit before the point or behind it
(`numeric_prefix` with one). -/
def scan? (cs : List Char) : Option Numeral :=
  let sign := leadingSign cs
  let unsigned := cs.drop sign.length
  let whole := leadingDigits unsigned
  let fraction := leadingFraction (unsigned.drop whole.length)
  let digits := whole ++ fraction.drop 1
  if digits.isEmpty then none
  else
    let rest := (unsigned.drop whole.length).drop fraction.length
    some ⟨sign, whole, fraction, leadingExponent rest⟩

/-- Whether the sign is a minus. -/
def isNegative (n : Numeral) : Bool := n.sign == ['-']

/-- All digits, as if there were no point. -/
def digits (n : Numeral) : Nat := ofDigits (n.whole ++ n.fraction.drop 1)

/-- The exponent as it is written; without one, zero. -/
def writtenExponent (n : Numeral) : Int :=
  let signed := n.exponent.drop 1
  let sign := leadingSign signed
  let magnitude := ofDigits (signed.drop sign.length)
  if sign == ['-'] then -magnitude else magnitude

/-- The power of ten that `digits` stands before. -/
def scale (n : Numeral) : Int := n.writtenExponent - (n.fraction.length - 1 : Nat)

/-- The integer that a numeral without point and exponent denotes. -/
def toInt (n : Numeral) : Int := if n.isNegative then -(ofDigits n.whole) else ofDigits n.whole

end Numeral

end TWay.Decimal

import TWay.Decimal.Numeral
import TWay.Json.Basic

/-!
# Numbers in JSON

A JSON number is an integer while it is written as one and fits 64 bits. All others are doubles:
the digits are taken into a significand of 64 bits as long as they fit, the others count for the
scale alone, and the significand is brought to its scale by one product or quotient, or by several
quotients where the scale is below that of all powers of ten. So the last bit of a double need not
be that of the nearest one. A number beyond all doubles is none.
-/

namespace TWay.Json

open Decimal (Numeral)

/-- A number as data take it. -/
inductive Number where
  | unsigned (n : Nat)
  | negative (i : Int64)
  | double (x : Float)

/-- The significand after the digits that fit, and the digits that are left. -/
def intake : Nat → List Char → Nat × List Char
  | significand, [] => (significand, [])
  | significand, digits@(c :: cs) =>
    let next := 10 * significand + (c.toNat - '0'.toNat)
    if next < Nat.pow 2 64 then intake next cs else (significand, digits)

/-- The greatest power of ten that is a double. -/
def greatestPower : Nat := 308

/-- The double nearest to a power of ten. -/
def powerOfTen (k : Nat) : Float := Float.ofScientific 1 false k

/-- A double times a power of ten, unless that is beyond all doubles. -/
def scaled? (x : Float) (scale : Int) : Option Float :=
  if 0 ≤ scale then
    if scale ≤ greatestPower then
      let product := x * powerOfTen scale.toNat
      if product.isInf then none else some product
    else if x == 0.0 then some x
    else none
  else if -greatestPower ≤ scale then some (x / powerOfTen (-scale).toNat)
  else if x == 0.0 then some x
  else scaled? (x / powerOfTen greatestPower) (scale + greatestPower)
termination_by (-scale).toNat
decreasing_by simp only [greatestPower] at *; omega

namespace Number

/-- The number that a numeral stands for. -/
def ofNumeral? (n : Numeral) : Option Number :=
  let (whole, left) := intake 0 n.whole
  if n.fraction.isEmpty && n.exponent.isEmpty && left.isEmpty then
    if !n.isNegative then some (.unsigned whole)
    else if whole ≠ 0 ∧ whole ≤ Nat.pow 2 63 then some (.negative (Int64.ofInt (-whole)))
    else some (.double (-Float.ofNat whole))
  else
    let digits := n.fraction.drop 1
    let (significand, unread) := intake whole digits
    let scale : Int := n.writtenExponent + left.length - (digits.length - unread.length : Nat)
    (scaled? (Float.ofNat significand) scale).map fun x => .double (if n.isNegative then -x else x)

end Number

end TWay.Json

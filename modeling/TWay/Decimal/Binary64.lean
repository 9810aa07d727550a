/-!
# Doubles as integers times powers of two

The logic knows a double by its 64 bits. `Binary64` says what they mean, so that rounding,
remainders and printing are arithmetic on whole numbers. Main definitions: `Binary64.ofFloat` reads
the bits, `Binary64.ofParts` writes back a value that needs no rounding.
-/

namespace TWay

/-- What the bits of a double say. -/
inductive Binary64 where
  | nan
  | infinite (negative : Bool)
  /-- The number `significand * 2 ^ exponent`, or its negative; zero has a sign, too. -/
  | finite (negative : Bool) (significand : Nat) (exponent : Int)
deriving DecidableEq

namespace Binary64

/-- The exponent of the doubles nearest to zero, and the least of all. -/
def leastExponent : Int := -1074

/-- The fields of a double: sign, 11 bits of biased exponent, 52 bits of fraction. -/
def ofFloat (x : Float) : Binary64 :=
  let bits : Nat := x.toBits.toNat
  let negative := decide (Nat.pow 2 63 ≤ bits)
  let biased : Nat := bits / Nat.pow 2 52 % Nat.pow 2 11
  let fraction : Nat := bits % Nat.pow 2 52
  if biased = Nat.pow 2 11 - 1 then
    if fraction = 0 then .infinite negative else .nan
  else if biased = 0 then .finite negative fraction leastExponent
  else .finite negative (Nat.pow 2 52 + fraction) (biased - 1 + leastExponent)

/--
The bits below the sign of `significand * 2 ^ exponent`, for a significand below `2 ^ 53` and an
exponent from `leastExponent` on: the significand moves up until it fills its 53 bits or the
exponent is least.
-/
def magnitudeBits (significand : Nat) (exponent : Int) : Nat :=
  if significand = 0 then 0
  else
    let room := (exponent - leastExponent).toNat
    let shift := min room (52 - significand.log2)
    (room - shift) * Nat.pow 2 52 + significand * Nat.pow 2 shift

/-- The double `significand * 2 ^ exponent` or its negative, where that needs no rounding. -/
def ofParts (negative : Bool) (significand : Nat) (exponent : Int) : Float :=
  let bits := magnitudeBits significand exponent + if negative then Nat.pow 2 63 else 0
  Float.ofBits (UInt64.ofNat bits)

/-- The significand over `2 ^ least`, for an exponent that is no smaller. -/
def scaled (significand : Nat) (exponent least : Int) : Nat :=
  significand * Nat.pow 2 (exponent - least).toNat

/-- The whole number in a finite magnitude, without what is behind the point. -/
def wholePart (significand : Nat) (exponent : Int) : Nat :=
  if 0 ≤ exponent then significand * Nat.pow 2 exponent.toNat
  else significand / Nat.pow 2 (-exponent).toNat

/--
The remainder of a division with whole quotient toward zero. It has the sign of the dividend and
needs no rounding: it is below the divisor and a multiple of the smaller of the two units (`MOD` in
`apply_arith`).
-/
def remainder (x y : Float) : Float :=
  match ofFloat x, ofFloat y with
  | .nan, _ | _, .nan | .infinite _, _ | _, .finite _ 0 _ => 0.0 / 0.0
  | .finite .., .infinite _ => x
  | .finite negative m p, .finite _ n q =>
    let least := min p q
    ofParts negative (scaled m p least % scaled n q least) least

end Binary64

end TWay

import TWay.Decimal.Binary64

/-!
# The shortest decimal that reads back

Of the decimals that round to a given double, the one with the fewest digits, and among those the
nearest; of two that are equally near, the larger. A double `m * 2 ^ q` owns the numbers between
the midpoints to its neighbours, and the midpoints themselves when `m` is even. On the grid of
decimals with `n` digits only the two neighbours of the value have to be tried: if any point of the
grid lies in the interval, one of them does.
-/

namespace TWay.Decimal

/-- The decimal `digits * 10 ^ exponent`. -/
structure Scaled where
  digits : Nat
  exponent : Int
deriving DecidableEq

/-- How many decimal digits a number has; zero has none. -/
def digitCount (n : Nat) : Nat := if n = 0 then 0 else (Nat.toDigits 10 n).length

/-- The positive fraction `num / den`. -/
structure Ratio where
  num : Nat
  den : Nat

namespace Ratio

/-- The fraction `m * 2 ^ q`. -/
def ofBinary (m : Nat) (q : Int) : Ratio := ⟨m * Nat.pow 2 q.toNat, Nat.pow 2 (-q).toNat⟩

/-- The fraction `d * 10 ^ k`. -/
def ofDecimal (d : Nat) (k : Int) : Ratio := ⟨d * Nat.pow 10 k.toNat, Nat.pow 10 (-k).toNat⟩

/-- Less, by the products across. -/
def lt (a b : Ratio) : Bool := a.num * b.den < b.num * a.den

/-- At most, by the products across. -/
def le (a b : Ratio) : Bool := a.num * b.den ≤ b.num * a.den

/-- The whole number in `a / 10 ^ k`. -/
def quotientAt (a : Ratio) (k : Int) : Nat :=
  a.num * Nat.pow 10 (-k).toNat / (a.den * Nat.pow 10 k.toNat)

/-- The place of the first digit: the `e` with `10 ^ e ≤ a < 10 ^ (e + 1)`. -/
def leadingPlace (a : Ratio) : Int :=
  if a.den ≤ a.num then digitCount (a.num / a.den) - 1
  else -digitCount ((a.den - 1) / a.num)

end Ratio

/-- The numbers that round to one double. -/
structure Owned where
  low : Ratio
  high : Ratio
  closed : Bool

/-- A double whose significand is least among those of its exponent is nearer to the one below. -/
def Owned.ofBinary (m : Nat) (q : Int) : Owned where
  low := .ofBinary (if m = Nat.pow 2 52 then 4 * m - 1 else 4 * m - 2) (q - 2)
  high := .ofBinary (4 * m + 2) (q - 2)
  closed := m % 2 = 0

/-- Whether a fraction rounds to the double. -/
def Owned.has (i : Owned) (a : Ratio) : Bool :=
  if i.closed then i.low.le a && a.le i.high else i.low.lt a && a.lt i.high

/-- The better of the value's neighbours on the grid of multiples of `10 ^ k`, if one is owned. -/
def onGrid (value : Ratio) (owned : Owned) (k : Int) : Option Scaled :=
  let d := value.quotientAt k
  let below := owned.has (.ofDecimal d k)
  let above := owned.has (.ofDecimal (d + 1) k)
  let midpoint := Ratio.ofDecimal (10 * d + 5) (k - 1)
  if below && (!above || value.lt midpoint) then some ⟨d, k⟩
  else if above then some ⟨d + 1, k⟩
  else none

/-- Seventeen digits tell any two doubles apart. -/
def maxDigits : Nat := 17

/-- The shortest decimal for the double `m * 2 ^ q`, where `m` is not zero. -/
def shortest (m : Nat) (q : Int) : Scaled :=
  let value := Ratio.ofBinary m q
  let owned := Owned.ofBinary m q
  let place := value.leadingPlace
  let grids := (List.range maxDigits).map fun (n : Nat) => place - n
  let finest := place - maxDigits
  (grids.findSome? (onGrid value owned)).getD ⟨value.quotientAt finest, finest⟩

end TWay.Decimal

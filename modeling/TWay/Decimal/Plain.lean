import TWay.Decimal.Shortest

/-!
# Doubles in plain notation

A double is written as its shortest decimal, in full: never with an exponent, a whole number
without a point, zero with its sign.
-/

namespace TWay.Decimal

/-- The digits of a number, filled with zeros on the left. -/
def padded (width n : Nat) : List Char :=
  let digits := Nat.toDigits 10 n
  List.replicate (width - digits.length) '0' ++ digits

/-- The digits without the zeros at their end. -/
def dropEndZeros (digits : List Char) : List Char := (digits.reverse.dropWhile (· = '0')).reverse

/-- The digits behind the point, with the point, unless they are all zero. -/
def fractionPart (places n : Nat) : List Char :=
  match dropEndZeros (padded places n) with
  | [] => []
  | digits => '.' :: digits

/-- A decimal in full. -/
def Scaled.plain (d : Scaled) : List Char :=
  let unit := Nat.pow 10 (-d.exponent).toNat
  let whole := d.digits * Nat.pow 10 d.exponent.toNat
  Nat.toDigits 10 (whole / unit) ++ fractionPart (-d.exponent).toNat (whole % unit)

/-- A minus in front of the text of a negative number. -/
def withSign (negative : Bool) (cs : List Char) : String :=
  String.ofList (if negative then '-' :: cs else cs)

/-- The text of a double (`to_string`). -/
def plainText (x : Float) : String :=
  match Binary64.ofFloat x with
  | .nan => "NaN"
  | .infinite negative => withSign negative "inf".toList
  | .finite negative 0 _ => withSign negative ['0']
  | .finite negative m q => withSign negative (shortest m q).plain

example : plainText (-0.0) = "-0" := by decide +kernel
example : plainText 100 = "100" := by decide +kernel
example : plainText (0.1 + 0.2) = "0.30000000000000004" := by decide +kernel
example : plainText 1e23 = "100000000000000000000000" := by decide +kernel
example : plainText 5e-7 = "0.0000005" := by decide +kernel

end TWay.Decimal

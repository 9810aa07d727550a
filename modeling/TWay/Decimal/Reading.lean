import TWay.Decimal.Numeral
import TWay.Decimal.Shortest
import TWay.Text.Blank

/-!
# Numbers read from the start of a text

Leading blanks are passed over, the longest numeral is read, and what follows it does not matter.
A text without a numeral has no number. An integer outside 64 bits has none either, whereas a
double is the nearest one, up to the infinities.
-/

namespace TWay

/-- The integer as 64 bits, if it fits (`parse`). -/
def int64? (i : Int) : Option Int64 :=
  if Int64.minValue.toInt ≤ i ∧ i ≤ Int64.maxValue.toInt then some (Int64.ofInt i) else none

namespace Decimal

/-- Decimal places beyond which every double is zero on one side and infinite on the other. -/
def farthestPlace : Int := 400

/-- The double nearest to `digits * 10 ^ scale`; of two that are equally near, the even one. -/
def nearest (digits : Nat) (scale : Int) : Float :=
  let leading := digitCount digits + scale
  if digits = 0 ∨ leading < -farthestPlace then 0.0
  else if farthestPlace < leading then 1.0 / 0.0
  else Float.ofScientific digits (decide (scale < 0)) scale.natAbs

/-- The double nearest to what a numeral says; a zero keeps its sign (`parse`). -/
def Numeral.toFloat (n : Numeral) : Float :=
  let magnitude := nearest n.digits n.scale
  if n.isNegative then -magnitude else magnitude

/-- The integer that a text starts with (`leading_i64`). -/
def leadingInt? (s : String) : Option Int64 :=
  (Numeral.scanWhole? (Text.dropBlanks s.toList)).bind fun n => int64? n.toInt

/-- The double that a text starts with (`leading_f64`). -/
def leadingDouble? (s : String) : Option Float :=
  (Numeral.scan? (Text.dropBlanks s.toList)).map Numeral.toFloat

example : leadingInt? " -12.5" = some (-12) := by decide +kernel
example : leadingInt? "9223372036854775808" = none := by decide +kernel
example : leadingDouble? ".5e1e7" = some 5 := by decide +kernel
example : leadingDouble? "1e" = some 1 := by decide +kernel
example : leadingDouble? "." = none := by decide +kernel

end Decimal

end TWay

import Mathlib.Algebra.Order.Field.Power
import Mathlib.Data.Rat.Floor
import TWay.Number

/-!
# Doubles as integers

A double is a rational number, unless it is infinite or not a number. As an integer of 64 bits it is
that number without its places behind the point, or the bound which that is beyond (`isTruncation`).
-/

namespace TWay

end TWay

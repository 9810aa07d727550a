import Mathlib.Data.Int.ModEq
import TWay.Number

/-!
# Integers of 64 bits

An integer is the only one of its range that is congruent modulo `2 ^ 64` to the whole number that
it stands for (`eq_toInt_iff`). Operations keep that congruence (`ArithOp.onInts?_modEq`), so that
it makes no difference whether each of them wraps around or the result does. A quotient and its
remainder go toward zero, except for the one quotient that is out of range (`isDivision`).
-/

namespace TWay

variable {op : ArithOp} {a b : Int64} {x y z : Int}

/-- The numbers in the range of 64 bits are told apart by their residues. -/
theorem eq_toInt_iff (h : a.toInt ≡ z [ZMOD 2 ^ 64]) (i : Int) :
    i = a.toInt ↔ -2 ^ 63 ≤ i ∧ i < 2 ^ 63 ∧ i ≡ z [ZMOD 2 ^ 64] := by
  have hlow := a.le_toInt
  have hhigh := a.toInt_lt
  constructor
  · rintro rfl
    exact ⟨hlow, hhigh, h⟩
  · rintro ⟨hlow', hhigh', h'⟩
    unfold Int.ModEq at h h'
    omega

theorem bmod_modEq (x : Int) : x.bmod (2 ^ 64) ≡ x [ZMOD 2 ^ 64] :=
  Int.bmod_emod

/-! ## Operations -/

namespace ArithOp

/-- A quotient or a remainder is wanted. -/
def Divides (op : ArithOp) : Prop := op = .div ∨ op = .mod

/-- The operation on whole numbers, which has no exact quotient. -/
def onWhole? : ArithOp → Int → Int → Option Int
  | .add, x, y => some (x + y)
  | .sub, x, y => some (x - y)
  | .mult, x, y => some (x * y)
  | .div, _, _ | .mod, _, _ => none

/-- There is no result for a division by zero only. -/
theorem onInts?_eq_none : op.onInts? a b = none ↔ op.Divides ∧ b = 0 := by
  cases op <;> simp [onInts?, Divides]

theorem onInts?_modEq (hop : ¬op.Divides) (ha : a.toInt ≡ x [ZMOD 2 ^ 64])
    (hb : b.toInt ≡ y [ZMOD 2 ^ 64]) :
    ∃ c z, op.onInts? a b = some c ∧ op.onWhole? x y = some z ∧ c.toInt ≡ z [ZMOD 2 ^ 64] := by
  cases op with
  | add =>
    refine ⟨_, _, rfl, rfl, ?_⟩
    rw [Int64.toInt_add]
    exact (bmod_modEq _).trans (ha.add hb)
  | sub =>
    refine ⟨_, _, rfl, rfl, ?_⟩
    rw [Int64.toInt_sub]
    exact (bmod_modEq _).trans (ha.sub hb)
  | mult =>
    refine ⟨_, _, rfl, rfl, ?_⟩
    rw [Int64.toInt_mul]
    exact (bmod_modEq _).trans (ha.mul hb)
  | div => exact absurd (.inl rfl) hop
  | mod => exact absurd (.inr rfl) hop

end ArithOp

theorem toInt_neg_modEq (ha : a.toInt ≡ x [ZMOD 2 ^ 64]) : (-a).toInt ≡ -x [ZMOD 2 ^ 64] := by
  rw [Int64.toInt_neg]
  exact (bmod_modEq _).trans ha.neg

/-! ## Division -/

/-- A quotient toward zero with its remainder. The quotient of the least integer by minus one is out
of range and wraps around to the least integer. -/
structure IsDivision (a b q r : Int64) : Prop where
  identity : a.toInt ≡ b.toInt * q.toInt + r.toInt [ZMOD 2 ^ 64]
  small : r.toInt.natAbs < b.toInt.natAbs
  sign : r.toInt = 0 ∨ r.toInt.sign = a.toInt.sign
  quotient : ¬(a.toInt = -2 ^ 63 ∧ b.toInt = -1) → q.toInt = a.toInt.tdiv b.toInt
  wraps : a.toInt = -2 ^ 63 ∧ b.toInt = -1 → q.toInt = -2 ^ 63 ∧ r.toInt = 0

theorem isDivision (a : Int64) (hb : b ≠ 0) : IsDivision a b (a / b) (a % b) where
  identity := by
    have hquotient : (a / b).toInt ≡ a.toInt.tdiv b.toInt [ZMOD 2 ^ 64] := by
      rw [Int64.toInt_div]
      exact bmod_modEq _
    have hsum := (hquotient.mul_left b.toInt).add_right (a % b).toInt
    rw [Int64.toInt_mod, Int.mul_tdiv_add_tmod] at hsum
    rw [Int64.toInt_mod]
    exact hsum.symm
  small := by
    have hpos : 0 < b.toInt.natAbs := by
      rw [Int.natAbs_pos, ← Int64.toInt_zero]
      exact fun h => hb (Int64.toInt_inj.1 h)
    rw [Int64.toInt_mod, Int.natAbs_tmod]
    exact Nat.mod_lt _ hpos
  sign := by
    rw [Int64.toInt_mod, ← Int.sign_eq_zero_iff_zero, Int.sign_tmod]
    split
    · exact .inl rfl
    · exact .inr rfl
  quotient h := by
    by_cases ha : a = Int64.minValue
    · refine Int64.toInt_div_of_ne_right a b fun hone => h ⟨?_, ?_⟩
      · rw [ha]
        rfl
      · rw [hone]
        rfl
    · exact Int64.toInt_div_of_ne_left a b ha
  wraps := by
    rintro ⟨ha, hone⟩
    rw [Int64.toInt_div, Int64.toInt_mod, ha, hone]
    decide

end TWay

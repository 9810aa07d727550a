import TWay.Number

/-!
# The distance of two doubles

Doubles that are numbers are in order one way or the other (`Double.le_iff_not_lt`). What is not a
number is neither before nor behind anything. The distance of two doubles is a number but for a few
cases: one of the two is none already, or they are the same infinity (`Double.isNaN_distance`).
-/

namespace TWay.Double

open Float.Model Float.Model.UnpackedFloat

/-! ## Order -/

theorem le_iff {x y : Float} : x ≤ y ↔ x.toModel.unpack.le y.toModel.unpack = true :=
  decide_eq_true_iff

theorem lt_iff {x y : Float} : x < y ↔ x.toModel.unpack.lt y.toModel.unpack = true :=
  decide_eq_true_iff

theorem compare_swap (x y : UnpackedFloat) : y.compare x = (x.compare y).map Ordering.swap := by
  cases x with
  | notANumber => cases y <;> rfl
  | infinity s =>
    cases y with
    | infinity t => cases s <;> cases t <;> rfl
    | notANumber | zero | finite => cases s <;> rfl
  | zero s =>
    cases y with
    | infinity t | finite t => cases t <;> rfl
    | notANumber | zero => rfl
  | finite s m e hm =>
    cases y with
    | infinity t => cases t <;> rfl
    | notANumber => rfl
    | zero t => cases s <;> rfl
    | finite t m' e' hm' =>
      have hmagnitudes : (compare e' e).then (compare m' m) =
          ((compare e e').then (compare m m')).swap := by
        rw [Ordering.swap_then, ← Std.OrientedCmp.eq_swap, ← Std.OrientedCmp.eq_swap]
      cases s <;> cases t
      · exact congrArg (fun o => some o.swap) hmagnitudes
      · rfl
      · rfl
      · exact congrArg some hmagnitudes

theorem compare_eq_none {x y : UnpackedFloat} :
    x.compare y = none ↔ x.isNaN = true ∨ y.isNaN = true := by
  cases x with
  | notANumber => exact iff_of_true (by cases y <;> rfl) (.inl rfl)
  | infinity s | zero s | finite s =>
    cases y with
    | notANumber => exact iff_of_true (by cases s <;> rfl) (.inr rfl)
    | infinity t | zero t | finite t =>
      refine iff_of_false ?_ (by rintro (h | h) <;> cases h)
      cases s <;> cases t <;> nofun

theorem le_iff_not_lt {x y : Float} (hx : x.isNaN = false) (hy : y.isNaN = false) :
    x ≤ y ↔ ¬y < x := by
  rw [le_iff, lt_iff, UnpackedFloat.le, UnpackedFloat.lt, compare_swap x.toModel.unpack]
  cases h : x.toModel.unpack.compare y.toModel.unpack with
  | none =>
    rcases compare_eq_none.1 h with hnan | hnan
    · cases hnan.symm.trans hx
    · cases hnan.symm.trans hy
  | some o => cases o <;> decide

theorem not_le_of_isNaN {x y : Float} (h : x.isNaN = true ∨ y.isNaN = true) : ¬x ≤ y := by
  have hnone : x.toModel.unpack.compare y.toModel.unpack = none := compare_eq_none.2 h
  rw [le_iff, UnpackedFloat.le, hnone]
  exact Bool.false_ne_true

theorem not_lt_of_isNaN {x y : Float} (h : x.isNaN = true ∨ y.isNaN = true) : ¬x < y := by
  have hnone : x.toModel.unpack.compare y.toModel.unpack = none := compare_eq_none.2 h
  rw [lt_iff, UnpackedFloat.lt, hnone]
  exact Bool.false_ne_true

theorem isNaN_eq_false_of_le {x y : Float} (h : x ≤ y) : y.isNaN = false := by
  rw [← Bool.not_eq_true]
  exact fun hy => not_le_of_isNaN (.inr hy) h

/-! ## What is written down -/

/-- Only under the greatest exponent there is something else than a number. -/
theorem isNaN_unpack_of_exponent {b : BitVec Format.binary64.numBits}
    (h : unpackExponent b ≠ -1#_) : (UnpackedFloat.unpack .binary64 b).isNaN = false := by
  unfold UnpackedFloat.unpack
  extract_lets mantissa exponent e sign s
  rw [if_neg h]
  by_cases hleast : exponent = 0#_
  · rw [if_pos hleast]
    by_cases hzero : mantissa = 0#_
    · rw [dif_pos hzero]
      rfl
    · rw [dif_neg hzero]
      rfl
  · rw [if_neg hleast]
    rfl

theorem isNaN_pack (x : UnpackedFloat) : (Float.Model.pack x).unpack.isNaN = x.isNaN := by
  cases x with
  | notANumber => rfl
  | infinity s => cases s <;> rfl
  | zero s => cases s <;> rfl
  | finite s m e hm =>
    show (UnpackedFloat.unpack .binary64 (UnpackedFloat.pack .binary64 (.finite s m e hm))).isNaN =
      false
    unfold UnpackedFloat.pack
    extract_lets bits biased
    split
    · -- Too large for a finite number.
      cases s <;> rfl
    · rename_i hbiased
      split
      · refine isNaN_unpack_of_exponent ?_
        rw [unpackExponent_packComponents]
        intro h
        have hgreatest := congrArg BitVec.toNat h
        simp [Format.binary64] at hgreatest hbiased
        omega
      · refine isNaN_unpack_of_exponent ?_
        rw [unpackExponent_packComponents]
        decide

theorem getLsbD_unpackMantissa (b : BitVec Format.binary64.numBits) (i : Nat) :
    (unpackMantissa b).getLsbD i = (decide (i < 52) && b.getLsbD (0 + i)) := by
  show (BitVec.cast _ (b.extractLsb 51 0)).getLsbD i = _
  rw [BitVec.getLsbD_cast, BitVec.getLsbD_extractLsb]

theorem getLsbD_unpackExponent (b : BitVec Format.binary64.numBits) (i : Nat) :
    (unpackExponent b).getLsbD i = (decide (i < 11) && b.getLsbD (52 + i)) := by
  show (BitVec.cast _ (b.extractLsb 62 52)).getLsbD i = _
  rw [BitVec.getLsbD_cast, BitVec.getLsbD_extractLsb]

theorem getLsbD_unpackSign (b : BitVec Format.binary64.numBits) (i : Nat) :
    (unpackSign b).getLsbD i = (decide (i < 1) && b.getLsbD (63 + i)) := by
  show (BitVec.cast _ (b.extractLsb 63 63)).getLsbD i = _
  rw [BitVec.getLsbD_cast, BitVec.getLsbD_extractLsb]

/-- What is written down is a sign, an exponent and a mantissa, and nothing else. -/
theorem packComponents_parts (b : BitVec Format.binary64.numBits) :
    packComponents .binary64 (Sign.ofBitVec (unpackSign b)) (unpackExponent b)
      (unpackMantissa b) = b := by
  have hsign (s : BitVec 1) : (Sign.ofBitVec s).toBitVec = s := by
    revert s
    decide
  show (Sign.ofBitVec (unpackSign b)).toBitVec ++ unpackExponent b ++ unpackMantissa b = b
  rw [hsign]
  refine BitVec.eq_of_getLsbD_eq fun i hi => ?_
  rw [BitVec.getLsbD_append, BitVec.getLsbD_append, getLsbD_unpackMantissa,
    getLsbD_unpackExponent, getLsbD_unpackSign]
  show (if i < 52 then decide (i < 52) && b.getLsbD (0 + i)
    else if i - 52 < 11 then decide (i - 52 < 11) && b.getLsbD (52 + (i - 52))
    else decide (i - 52 - 11 < 1) && b.getLsbD (63 + (i - 52 - 11))) = b.getLsbD i
  have hi : i < 64 := hi
  split
  · rename_i hlow
    rw [decide_eq_true hlow, Bool.true_and, Nat.zero_add]
  · split
    · rename_i hmiddle
      have hplace : 52 + (i - 52) = i := by omega
      rw [decide_eq_true hmiddle, Bool.true_and, hplace]
    · have hlast : i - 52 - 11 < 1 := by omega
      have hplace : 63 + (i - 52 - 11) = i := by omega
      rw [decide_eq_true hlast, Bool.true_and, hplace]

/-- There is one way to write down an infinity. -/
theorem eq_of_unpack_infinity {b : BitVec Format.binary64.numBits} {s : Sign}
    (h : UnpackedFloat.unpack .binary64 b = .infinity s) : b = packComponents .binary64 s (-1#_) 0#_ := by
  rw [← packComponents_parts b]
  unfold UnpackedFloat.unpack at h
  extract_lets mantissa exponent e sign at h
  by_cases hexponent : exponent = -1#_
  · rw [if_pos hexponent] at h
    by_cases hmantissa : mantissa = 0#_
    · rw [if_pos hmantissa, UnpackedFloat.infinity.injEq] at h
      rw [← h, ← hexponent, ← hmantissa]
    · rw [if_neg hmantissa] at h
      cases h
  · rw [if_neg hexponent] at h
    by_cases hleast : exponent = 0#_
    · rw [if_pos hleast] at h
      by_cases hzero : mantissa = 0#_
      · rw [dif_pos hzero] at h
        cases h
      · rw [dif_neg hzero] at h
        cases h
    · rw [if_neg hleast] at h
      cases h

theorem unpack_inj_of_isInf {x y : Float} (hx : x.isInf = true) :
    x.toModel.unpack = y.toModel.unpack ↔ x = y := by
  refine ⟨fun h => ?_, fun h => by rw [h]⟩
  obtain ⟨s, hs⟩ : ∃ s, x.toModel.unpack = .infinity s := by
    have hinf : x.toModel.unpack.isInf = true := hx
    cases hu : x.toModel.unpack with
    | infinity s => exact ⟨s, rfl⟩
    | notANumber | zero | finite =>
      rw [hu] at hinf
      cases hinf
  have hbits := (eq_of_unpack_infinity hs).trans (eq_of_unpack_infinity (h.symm.trans hs)).symm
  rcases x with ⟨⟨⟨b⟩, hb⟩⟩
  rcases y with ⟨⟨⟨b'⟩, hb'⟩⟩
  cases hbits
  rfl

/-! ## Subtraction -/

theorem isNaN_normalize (m e : Int) (s : Sign) :
    (UnpackedFloat.normalize .binary64 m e s).isNaN = false := by
  have hmantissa (t : Sign) (m : Nat) (e : Int) :
      (if h : m = 0 then UnpackedFloat.zero t
        else .finite t m e (Nat.pos_of_ne_zero h)).isNaN = false := by
    by_cases hzero : m = 0
    · rw [dif_pos hzero]
      rfl
    · rw [dif_neg hzero]
      rfl
  have hround (t : Sign) (m : Nat) : (UnpackedFloat.round .binary64 t m e).isNaN = false :=
    hmantissa t _ _
  unfold UnpackedFloat.normalize
  split
  · exact hround _ _
  · rfl
  · exact hround _ _

theorem isNaN_sub (x y : UnpackedFloat) :
    (UnpackedFloat.sub .binary64 x y).isNaN = true ↔
      x.isNaN = true ∨ y.isNaN = true ∨ x.isInf = true ∧ x = y := by
  cases x with
  | notANumber => exact iff_of_true rfl (.inl rfl)
  | infinity s =>
    cases y with
    | notANumber => exact iff_of_true rfl (.inr (.inl rfl))
    | infinity t =>
      -- Infinities have a distance just where their signs differ.
      cases s <;> cases t
      · exact iff_of_true rfl (.inr (.inr ⟨rfl, rfl⟩))
      · exact iff_of_false Bool.false_ne_true (by rintro (h | h | ⟨-, h⟩) <;> cases h)
      · exact iff_of_false Bool.false_ne_true (by rintro (h | h | ⟨-, h⟩) <;> cases h)
      · exact iff_of_true rfl (.inr (.inr ⟨rfl, rfl⟩))
    | zero | finite =>
      exact iff_of_false Bool.false_ne_true (by rintro (h | h | ⟨-, h⟩) <;> cases h)
  | zero s =>
    cases y with
    | notANumber => exact iff_of_true rfl (.inr (.inl rfl))
    | zero t =>
      refine iff_of_false ?_ (by rintro (h | h | ⟨h, -⟩) <;> cases h)
      cases s <;> cases t <;> exact Bool.false_ne_true
    | infinity | finite =>
      exact iff_of_false Bool.false_ne_true (by rintro (h | h | ⟨h, -⟩) <;> cases h)
  | finite s m e hm =>
    cases y with
    | notANumber => exact iff_of_true rfl (.inr (.inl rfl))
    | infinity | zero =>
      exact iff_of_false Bool.false_ne_true (by rintro (h | h | ⟨h, -⟩) <;> cases h)
    | finite t m' e' hm' =>
      have hnumber : (UnpackedFloat.sub .binary64 (.finite s m e hm)
          (.finite t m' e' hm')).isNaN = false := isNaN_normalize _ _ _
      exact iff_of_false (Bool.eq_false_iff.1 hnumber)
        (by rintro (h | h | ⟨h, -⟩) <;> cases h)

theorem isNaN_abs (x : Float) : x.abs.isNaN = x.isNaN := by
  show (Float.Model.pack x.toModel.unpack.abs).unpack.isNaN = x.toModel.unpack.isNaN
  rw [isNaN_pack]
  cases x.toModel.unpack <;> rfl

theorem isNaN_distance (x y : Float) :
    (x - y).abs.isNaN = true ↔ x.isNaN = true ∨ y.isNaN = true ∨ x.isInf = true ∧ x = y := by
  rw [isNaN_abs]
  show (Float.Model.pack _).unpack.isNaN = true ↔ _
  rw [isNaN_pack, isNaN_sub]
  exact or_congr_right (or_congr_right (and_congr_right unpack_inj_of_isInf))

end TWay.Double

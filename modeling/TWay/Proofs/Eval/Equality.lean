import TWay.Proofs.Distance
import TWay.Proofs.Eval.Comparison

/-!
# Equal and unequal

Equality and inequality of numbers are two comparisons of their distance with the precision. They
decide between them wherever there is a distance. Where a double is involved and there is none
(`Num.NoDistance`), which is so for something that is not a number and for an infinity beside
itself, the numbers come out as neither equal nor unequal (`unequal_negates_equal`). Integers, which
compare exactly, and strings are always either equal or unequal.
-/

namespace TWay

/-- The numbers compare as doubles, and those have no distance. -/
def Num.NoDistance (a b : Num) : Prop :=
  ¬(a.type = .int ∧ b.type = .int) ∧
    (a.toDouble.isNaN = true ∨ b.toDouble.isNaN = true ∨
      a.toDouble.isInf = true ∧ a.toDouble = b.toDouble)

/-- Integers are equal when they are the same, and doubles when their distance is within the
precision. -/
def Num.EqualWithin (precision : Float) (a b : Num) : Prop :=
  if a.type = .int ∧ b.type = .int then a = b
  else (a.toDouble - b.toDouble).abs ≤ precision

namespace RelOp

variable {precision : Float} {a b : Num}

/-- A precision that is a number separates the distances that are. -/
theorem ne_onDoubles {x y : Float} (hp : precision.isNaN = false)
    (hd : (x - y).abs.isNaN = false) :
    ne.onDoubles precision x y = !eq.onDoubles precision x y := by
  show decide _ = !decide _
  rw [← decide_not]
  refine decide_eq_decide.2 ?_
  rw [Double.le_iff_not_lt hd hp, not_not]

theorem holds_of_double (op : RelOp) (h : ¬(a.type = .int ∧ b.type = .int)) :
    op.holds precision a b = op.onDoubles precision a.toDouble b.toDouble := by
  cases a with
  | double x => rfl
  | int i =>
    cases b with
    | double y => rfl
    | int j => exact absurd ⟨rfl, rfl⟩ h

theorem ne_holds_of_ints (ha : a.type = .int) (hb : b.type = .int) :
    ne.holds precision a b = !eq.holds precision a b := by
  rw [ne.holds_of_ints precision ha hb, eq.holds_of_ints precision ha hb, ← decide_not]
  rfl

theorem ne_holds (hp : precision.isNaN = false) (h : ¬a.NoDistance b) :
    ne.holds precision a b = !eq.holds precision a b := by
  by_cases hints : a.type = .int ∧ b.type = .int
  · exact ne_holds_of_ints hints.1 hints.2
  · rw [holds_of_double ne hints, holds_of_double eq hints]
    refine ne_onDoubles hp ?_
    rw [← Bool.not_eq_true, Double.isNaN_distance]
    exact fun hd => h ⟨hints, hd⟩

theorem eq_holds_iff : eq.holds precision a b = true ↔ a.EqualWithin precision b := by
  unfold Num.EqualWithin
  split
  · rename_i hints
    obtain ⟨i, rfl⟩ := Num.type_eq_int.1 hints.1
    obtain ⟨j, rfl⟩ := Num.type_eq_int.1 hints.2
    simp [holds, onInts]
  · rename_i hints
    rw [holds_of_double eq hints]
    exact decide_eq_true_iff

/-- Without a distance neither holds. -/
theorem holds_of_noDistance (h : a.NoDistance b) :
    eq.holds precision a b = false ∧ ne.holds precision a b = false := by
  obtain ⟨hints, hd⟩ := h
  rw [← Double.isNaN_distance] at hd
  rw [holds_of_double eq hints, holds_of_double ne hints]
  exact ⟨decide_eq_false (Double.not_le_of_isNaN (.inl hd)),
    decide_eq_false (Double.not_lt_of_isNaN (.inr hd))⟩

end RelOp

/-- A comparison that counts is one of two values that do. -/
theorem Evaluated.both_eq_valid {α β : Type} {f : α → β → Bool} {a : Evaluated α} {b : Evaluated β}
    {t : Bool} :
    both (fun x y => some (f x y)) a b = valid t ↔
      ∃ x y, a = valid x ∧ b = valid y ∧ f x y = t := by
  obtain ⟨x, hx⟩ := a
  obtain ⟨y, hy⟩ := b
  cases hx <;> cases hy <;> simp [both, ofOption, valid, invalid]

namespace Context

variable {ctx : Context}

theorem constraint_arith_eq_valid {op : RelOp} {lhs rhs : ArithExpr} {precision : Float}
    {t : Bool} :
    ctx.constraint (.arith op lhs rhs precision) = .ok (.valid t) ↔
      ∃ a b, ctx.num lhs = .ok (.valid a) ∧ ctx.num rhs = .ok (.valid b) ∧
        op.holds precision a b = t := by
  simp only [constraint, Constraint.eval, num, bind_eq_ok, pure_eq_ok, Evaluated.both_eq_valid]
  constructor
  · rintro ⟨_, hl, _, hr, a, b, rfl, rfl, ht⟩
    exact ⟨a, b, hl, hr, ht⟩
  · rintro ⟨a, b, hl, hr, ht⟩
    exact ⟨_, hl, _, hr, a, b, rfl, rfl, ht⟩

theorem constraint_string_eq_valid {op : StrOp} {lhs rhs : StrExpr} {t : Bool} :
    ctx.constraint (.string op lhs rhs) = .ok (.valid t) ↔
      ∃ a b, ctx.string lhs = .ok (.valid a) ∧ ctx.string rhs = .ok (.valid b) ∧
        op.holds a b = t := by
  simp only [constraint, Constraint.eval, string, bind_eq_ok, pure_eq_ok, Evaluated.both_eq_valid]
  constructor
  · rintro ⟨_, hl, _, hr, a, b, rfl, rfl, ht⟩
    exact ⟨a, b, hl, hr, ht⟩
  · rintro ⟨a, b, hl, hr, ht⟩
    exact ⟨_, hl, _, hr, a, b, rfl, rfl, ht⟩

/-- Where equality is decided, inequality is decided the other way. For numbers that is so if they
have a distance, and then they are equal if it is within the precision; numbers without one are
neither equal nor unequal. For integers it is always so, whatever the precision is, and for
strings. -/
theorem unequal_negates_equal (ctx : Context) :
    (∀ lhs rhs precision t, 0 ≤ precision →
      ctx.constraint (.arith .eq lhs rhs precision) = .ok (.valid t) →
        ∃ a b, ctx.num lhs = .ok (.valid a) ∧ ctx.num rhs = .ok (.valid b) ∧
          (t = true ↔ a.EqualWithin precision b) ∧
          (¬a.NoDistance b → ctx.constraint (.arith .ne lhs rhs precision) = .ok (.valid !t)) ∧
          (a.NoDistance b →
            t = false ∧ ctx.constraint (.arith .ne lhs rhs precision) = .ok (.valid false))) ∧
    (∀ lhs rhs precision t, lhs.type = .int → rhs.type = .int →
      ctx.constraint (.arith .eq lhs rhs precision) = .ok (.valid t) →
        ctx.constraint (.arith .ne lhs rhs precision) = .ok (.valid !t)) ∧
    ∀ lhs rhs t, ctx.constraint (.string .eq lhs rhs) = .ok (.valid t) →
      ctx.constraint (.string .ne lhs rhs) = .ok (.valid !t) := by
  refine ⟨fun lhs rhs precision t hp h => ?_, fun lhs rhs precision t hlt hrt h => ?_,
    fun lhs rhs t h => ?_⟩
  · obtain ⟨a, b, hl, hr, rfl⟩ := constraint_arith_eq_valid.1 h
    refine ⟨a, b, hl, hr, RelOp.eq_holds_iff, fun hd => ?_, fun hd => ?_⟩
    · have hne := RelOp.ne_holds (Double.isNaN_eq_false_of_le hp) hd
      exact constraint_arith_eq_valid.2 ⟨a, b, hl, hr, hne⟩
    · obtain ⟨heq, hne⟩ := RelOp.holds_of_noDistance hd
      exact ⟨heq, constraint_arith_eq_valid.2 ⟨a, b, hl, hr, hne⟩⟩
  · obtain ⟨a, b, hl, hr, rfl⟩ := constraint_arith_eq_valid.1 h
    have ha : a.type = .int := lhs.int_of_eval hlt hl
    have hb : b.type = .int := rhs.int_of_eval hrt hr
    exact constraint_arith_eq_valid.2 ⟨a, b, hl, hr, RelOp.ne_holds_of_ints ha hb⟩
  · obtain ⟨a, b, hl, hr, rfl⟩ := constraint_string_eq_valid.1 h
    exact constraint_string_eq_valid.2 ⟨a, b, hl, hr, rfl⟩

/-- One divided by zero is neither equal to itself nor unequal. -/
theorem unequal_negates_equal_infinite :
    let ctx : Context := ⟨[], .empty, .deciding⟩
    let quotient : ArithExpr := .binary .div .double (.double 1 "1") (.double 0 "0")
    (0 : Float) ≤ 0 ∧
      ctx.constraint (.arith .eq quotient quotient 0) = .ok (.valid false) ∧
      ctx.constraint (.arith .ne quotient quotient 0) = .ok (.valid false) := by
  intro ctx quotient
  have hquotient : ctx.num quotient = .ok (.valid (.double (1 / 0))) := by
    rw [num, reading_eq]
    rfl
  have hd : (Num.double (1 / 0)).NoDistance (.double (1 / 0)) :=
    ⟨by decide, .inr (.inr ⟨by decide, rfl⟩)⟩
  obtain ⟨heq, hne⟩ := RelOp.holds_of_noDistance hd
  exact ⟨by decide, constraint_arith_eq_valid.2 ⟨_, _, hquotient, hquotient, heq⟩,
    constraint_arith_eq_valid.2 ⟨_, _, hquotient, hquotient, hne⟩⟩

end Context

end TWay

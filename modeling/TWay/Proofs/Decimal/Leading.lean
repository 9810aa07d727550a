import Mathlib.Algebra.Ring.Int.Defs
import Mathlib.Data.List.TakeWhile
import TWay.Build.Param

/-!
# Integers at the start of a text

A text starts with an integer if it consists of blanks, a sign or none, the digits up to the last in
a row, and anything else (`StartsWith`). This is the integer that is read from the text, if 64 bits
can hold it, and nothing is read from any other text. So what is read from an integer as it is
written, between blanks and a rest, is that integer (`leading_integer_is_read`).
-/

namespace TWay.Decimal

/-- The parts of a text that starts with an integer. The digits go as far as there are any. -/
structure LeadingParts (blanks sign digits rest : List Char) : Prop where
  blank : ∀ c ∈ blanks, Text.isBlank c = true
  sign : sign = [] ∨ sign = ['+'] ∨ sign = ['-']
  nonempty : digits ≠ []
  digit : ∀ c ∈ digits, c.isDigit = true
  maximal : ∀ c, rest.head? = some c → c.isDigit = false

/-- The integer that digits denote behind a sign. -/
def signed (sign digits : List Char) : Int :=
  if sign = ['-'] then -(Nat.ofDigitChars 10 digits 0) else Nat.ofDigitChars 10 digits 0

/-- The text starts with this integer, whichever its size. -/
def StartsWith (cs : List Char) (z : Int) : Prop :=
  ∃ blanks sign digits rest, cs = blanks ++ (sign ++ (digits ++ rest)) ∧
    LeadingParts blanks sign digits rest ∧ z = signed sign digits

/-! ## The first characters of a kind -/

section

variable {α : Type} {p : α → Bool} {xs ys : List α}

theorem takeWhile_eq_nil (h : ∀ y, ys.head? = some y → p y = false) : ys.takeWhile p = [] := by
  cases ys with
  | nil => rfl
  | cons y ys => simp [h y rfl]

theorem takeWhile_append (hxs : ∀ x ∈ xs, p x = true)
    (hys : ∀ y, ys.head? = some y → p y = false) : (xs ++ ys).takeWhile p = xs := by
  rw [List.takeWhile_append_of_pos hxs, takeWhile_eq_nil hys, List.append_nil]

theorem dropWhile_append (hxs : ∀ x ∈ xs, p x = true)
    (hys : ∀ y, ys.head? = some y → p y = false) : (xs ++ ys).dropWhile p = ys := by
  rw [List.dropWhile_append_of_pos hxs]
  cases ys with
  | nil => rfl
  | cons y ys => simp [hys y rfl]

end

/-- A digit is in none of the ranges of blanks. -/
theorem isBlank_of_isDigit {c : Char} (h : c.isDigit = true) : Text.isBlank c = false := by
  obtain ⟨hlow, hhigh⟩ := Bool.and_eq_true_iff.1 h
  have hlow : 48 ≤ c.toNat := UInt32.le_iff_toNat_le.1 (of_decide_eq_true hlow)
  have hhigh : c.toNat ≤ 57 := UInt32.le_iff_toNat_le.1 (of_decide_eq_true hhigh)
  rw [Bool.eq_false_iff]
  intro hblank
  obtain ⟨r, hr, hfrom, hto⟩ := Text.CodeRanges.has_eq_true.1 hblank
  have houtside : ∀ r ∈ Text.blankRanges, r.2 < 48 ∨ 57 < r.1 := by decide
  have := houtside r hr
  omega

/-! ## Reading -/

/-- What comes behind the blanks starts with a sign or with a digit, and so with no blank. -/
theorem LeadingParts.dropBlanks {blanks sign digits rest : List Char}
    (h : LeadingParts blanks sign digits rest) :
    Text.dropBlanks (blanks ++ (sign ++ (digits ++ rest))) = sign ++ (digits ++ rest) := by
  refine dropWhile_append h.blank fun c hc => ?_
  obtain ⟨d, digits, rfl⟩ := List.exists_cons_of_ne_nil h.nonempty
  rcases h.sign with rfl | rfl | rfl
  · cases hc
    exact isBlank_of_isDigit (h.digit c List.mem_cons_self)
  · cases hc
    rfl
  · cases hc
    rfl

/-- A digit is no sign, so that the sign ends where the digits begin. -/
theorem LeadingParts.leadingSign {blanks sign digits rest : List Char}
    (h : LeadingParts blanks sign digits rest) :
    leadingSign (sign ++ (digits ++ rest)) = sign := by
  obtain ⟨d, digits, rfl⟩ := List.exists_cons_of_ne_nil h.nonempty
  rcases h.sign with rfl | rfl | rfl
  · have hdigit := h.digit d List.mem_cons_self
    show Decimal.leadingSign (d :: (digits ++ rest)) = []
    unfold Decimal.leadingSign
    split
    · rename_i heq
      cases heq
      cases hdigit
    · rename_i heq
      cases heq
      cases hdigit
    · rfl
  · rfl
  · rfl

theorem scanWhole?_of_parts {blanks sign digits rest : List Char}
    (h : LeadingParts blanks sign digits rest) :
    Numeral.scanWhole? (Text.dropBlanks (blanks ++ (sign ++ (digits ++ rest)))) =
      some ⟨sign, digits, [], []⟩ := by
  have hdigits : leadingDigits (digits ++ rest) = digits := takeWhile_append h.digit h.maximal
  have hnonempty : digits.isEmpty = false := List.isEmpty_eq_false_iff.2 h.nonempty
  rw [h.dropBlanks, Numeral.scanWhole?, h.leadingSign]
  simp only [List.drop_left, hdigits, hnonempty]
  rfl

theorem leadingSign_spec (cs : List Char) :
    cs = leadingSign cs ++ cs.drop (leadingSign cs).length ∧
      (leadingSign cs = [] ∨ leadingSign cs = ['+'] ∨ leadingSign cs = ['-']) := by
  unfold leadingSign
  split
  · exact ⟨rfl, .inr (.inl rfl)⟩
  · exact ⟨rfl, .inr (.inr rfl)⟩
  · exact ⟨rfl, .inl rfl⟩

theorem parts_of_scanWhole? {cs : List Char} {n : Numeral}
    (h : Numeral.scanWhole? (Text.dropBlanks cs) = some n) :
    ∃ blanks rest, cs = blanks ++ (n.sign ++ (n.whole ++ rest)) ∧
      LeadingParts blanks n.sign n.whole rest := by
  obtain ⟨hunsigned, hsign⟩ := leadingSign_spec (Text.dropBlanks cs)
  simp only [Numeral.scanWhole?] at h
  generalize (Text.dropBlanks cs).drop (leadingSign (Text.dropBlanks cs)).length = unsigned
    at h hunsigned
  split at h
  · cases h
  · rename_i hnonempty
    cases h
    refine ⟨cs.takeWhile Text.isBlank, unsigned.dropWhile isDigit, ?_, {
      blank := fun c hc => List.mem_takeWhile_imp hc
      sign := hsign
      nonempty := fun hnil => hnonempty (List.isEmpty_iff.2 hnil)
      digit := fun c hc => List.mem_takeWhile_imp (p := isDigit) hc
      maximal := fun c hc => ?_ }⟩
    · rw [leadingDigits, List.takeWhile_append_dropWhile, ← hunsigned]
      exact List.takeWhile_append_dropWhile.symm
    · have hhead := List.head?_dropWhile_not isDigit unsigned
      rwa [hc] at hhead

theorem Numeral.toInt_eq (n : Numeral) : n.toInt = signed n.sign n.whole := by
  unfold toInt signed isNegative
  simp only [beq_iff_eq]
  rfl

theorem startsWith_iff {cs : List Char} {z : Int} :
    StartsWith cs z ↔
      ∃ n, Numeral.scanWhole? (Text.dropBlanks cs) = some n ∧ n.toInt = z := by
  constructor
  · rintro ⟨blanks, sign, digits, rest, rfl, h, rfl⟩
    exact ⟨_, scanWhole?_of_parts h, Numeral.toInt_eq _⟩
  · rintro ⟨n, hn, rfl⟩
    obtain ⟨blanks, rest, hcs, h⟩ := parts_of_scanWhole? hn
    exact ⟨blanks, n.sign, n.whole, rest, hcs, h, n.toInt_eq⟩

theorem int64?_eq_some_iff {z : Int} {v : Int64} : int64? z = some v ↔ v.toInt = z := by
  unfold int64?
  rw [Int64.toInt_minValue, Int64.toInt_maxValue]
  split
  · rename_i hrange
    have hofInt : (Int64.ofInt z).toInt = z :=
      Int64.toInt_ofInt_of_le hrange.1 (by omega)
    rw [Option.some.injEq, ← Int64.toInt_inj, hofInt, eq_comm]
  · rename_i hrange
    have hlow := v.le_toInt
    have hhigh := v.toInt_lt
    refine iff_of_false (by simp) fun heq => hrange ?_
    omega

theorem leadingInt?_eq_some_iff {s : String} {v : Int64} :
    leadingInt? s = some v ↔ StartsWith s.toList v.toInt := by
  rw [startsWith_iff, leadingInt?, Option.bind_eq_some_iff]
  refine exists_congr fun n => and_congr_right fun _ => ?_
  rw [int64?_eq_some_iff, eq_comm]

theorem leadingInt?_eq_none_iff {s : String} :
    leadingInt? s = none ↔ ∀ z, StartsWith s.toList z → ¬(-2 ^ 63 ≤ z ∧ z < 2 ^ 63) := by
  rw [Option.eq_none_iff_forall_ne_some]
  constructor
  · rintro h z hz ⟨hlow, hhigh⟩
    refine h (Int64.ofInt z) (leadingInt?_eq_some_iff.2 ?_)
    rwa [Int64.toInt_ofInt_of_le hlow hhigh]
  · intro h v hv
    exact h _ (leadingInt?_eq_some_iff.1 hv) ⟨v.le_toInt, v.toInt_lt⟩

/-! ## Writing and reading -/

theorem toList_toString (z : Int) :
    (toString z).toList = (if z < 0 then ['-'] else []) ++ Nat.toDigits 10 z.natAbs := by
  rw [Int.toString_eq_repr, Int.repr_eq_if]
  split
  · rename_i hnonneg
    rw [if_neg (Int.not_lt.2 hnonneg), Nat.toList_repr, ← Int.natAbs_of_nonneg hnonneg]
    rfl
  · rename_i hneg
    have habs : (-z).toNat = z.natAbs := by omega
    rw [if_pos (Int.not_le.1 hneg), String.toList_append, Nat.toList_repr, habs]
    rfl

theorem startsWith_toString (z : Int) {w r : String} (hw : ∀ c ∈ w.toList, Text.isBlank c = true)
    (hr : ∀ c, r.toList.head? = some c → c.isDigit = false) :
    StartsWith (w ++ toString z ++ r).toList z := by
  refine ⟨w.toList, if z < 0 then ['-'] else [], Nat.toDigits 10 z.natAbs, r.toList, ?_, {
    blank := hw
    sign := ?_
    nonempty := Nat.toDigits_ne_nil
    digit := fun c hc => Nat.isDigit_of_mem_toDigits (by decide) (by decide) hc
    maximal := hr }, ?_⟩
  · rw [String.toList_append, String.toList_append, toList_toString]
    simp only [List.append_assoc]
  · split
    · exact .inr (.inr rfl)
    · exact .inl rfl
  · rw [signed, Nat.ofDigitChars_ten_toDigits]
    by_cases hneg : z < 0
    · rw [if_pos hneg, if_pos rfl]
      omega
    · rw [if_neg hneg, if_neg (List.cons_ne_nil _ _).symm]
      omega

/-- An integer is read from a text exactly if the text starts with it: blanks come first, then a sign
or none, then digits up to the last in a row, which denote it, and then anything. Nothing is read if
the text starts with no integer, or with one that 64 bits cannot hold. So an integer is read back
as it is written, also between blanks and a rest that does not go on with a digit, and a domain has
the same entry for its spelling as for the literal. -/
theorem leading_integer_is_read :
    (∀ s v, leadingInt? s = some v ↔ StartsWith s.toList v.toInt) ∧
    (∀ s, leadingInt? s = none ↔ ∀ z, StartsWith s.toList z → ¬(-2 ^ 63 ≤ z ∧ z < 2 ^ 63)) ∧
    (∀ (v : Int64) (w r : String), (∀ c ∈ w.toList, Text.isBlank c = true) →
      (∀ c, r.toList.head? = some c → c.isDigit = false) →
        leadingInt? (w ++ toString v.toInt ++ r) = some v) ∧
    ∀ v : Int64, DomainValue.coerce .int (toString v.toInt) =
      DomainValue.ofLiteral .int (.arith (.ofInt v)) := by
  have hback (v : Int64) (w r : String) (hw : ∀ c ∈ w.toList, Text.isBlank c = true)
      (hr : ∀ c, r.toList.head? = some c → c.isDigit = false) :
      leadingInt? (w ++ toString v.toInt ++ r) = some v :=
    leadingInt?_eq_some_iff.2 (startsWith_toString v.toInt hw hr)
  refine ⟨fun s v => leadingInt?_eq_some_iff, fun s => leadingInt?_eq_none_iff, hback, fun v => ?_⟩
  have h := hback v "" "" (by simp) (by simp)
  rw [String.empty_append, String.append_empty] at h
  rw [DomainValue.coerce, Value.ofText, h]
  rfl

end TWay.Decimal

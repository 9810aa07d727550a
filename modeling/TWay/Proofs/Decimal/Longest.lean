import Mathlib.Computability.Language
import TWay.Proofs.Decimal.Leading

/-!
# The longest numeral at the start of a text

The spellings of numerals are a language, put together from those of their parts (`numerals`,
`wholeNumerals`). Each part is scanned as far as it goes, and what may follow a part starts with a
character that the part cannot hold. So a shorter part could only be followed by nothing, and the
parts as far as they go make the longest numeral (`LongestPrefix.mul`). The two scanners find the
longest one there is, and nothing only where no prefix of the text is a numeral (`scan?_finds`,
`scanWhole?_finds`).
-/

namespace TWay.Decimal

open scoped Computability

variable {l l₁ l₂ : Language Char} {cs ds p : List Char} {c : Char}

/-! ## The grammar -/

/-- A sign, or none: `[+-]?`. -/
def signs : Language Char := {[], ['+'], ['-']}

/-- One digit: `D`. -/
def oneDigit : Language Char := {ds | ∃ c : Char, ds = [c] ∧ c.isDigit = true}

/-- Digits, at least one: `D+`. -/
def digitRow : Language Char := oneDigit * oneDigit∗

/-- A point and digits, or neither: `('.' D*)?`. -/
def fractions : Language Char := 1 + {['.']} * oneDigit∗

/-- Digits with or without a point, of which one is a digit: `D+ ('.' D*)? | '.' D+`. -/
def mantissas : Language Char := digitRow * fractions + {['.']} * digitRow

/-- Whole numerals: `[+-]? D+`. -/
def wholeNumerals : Language Char := signs * digitRow

/-- The mark of an exponent and a whole numeral: `[eE] [+-]? D+`. -/
def exponents : Language Char := ({['e']} + {['E']}) * wholeNumerals

/-- Numerals: `[+-]? (D+ ('.' D*)? | '.' D+) ([eE] [+-]? D+)?`. -/
def numerals : Language Char := signs * (mantissas * (1 + exponents))

theorem mem_signs : cs ∈ signs ↔ cs = [] ∨ cs = ['+'] ∨ cs = ['-'] := Iff.rfl

theorem mem_oneDigit : ds ∈ oneDigit ↔ ∃ c : Char, ds = [c] ∧ c.isDigit = true := Iff.rfl

theorem mem_oneDigit_kstar : ds ∈ oneDigit∗ ↔ ∀ c ∈ ds, c.isDigit = true := by
  rw [Language.mem_kstar]
  constructor
  · rintro ⟨words, rfl, hwords⟩ c hc
    obtain ⟨word, hword, hmem⟩ := List.mem_flatten.1 hc
    obtain ⟨d, rfl, hd⟩ := mem_oneDigit.1 (hwords word hword)
    rwa [List.mem_singleton.1 hmem]
  · intro h
    refine ⟨ds.map fun c => [c], ?_, fun word hword => ?_⟩
    · rw [← List.flatMap_def, List.flatMap_singleton']
    · obtain ⟨c, hc, rfl⟩ := List.mem_map.1 hword
      exact ⟨c, rfl, h c hc⟩

theorem mem_digitRow : ds ∈ digitRow ↔ ds ≠ [] ∧ ∀ c ∈ ds, c.isDigit = true := by
  rw [digitRow, Language.mem_mul]
  constructor
  · rintro ⟨_, ⟨c, rfl, hc⟩, rest, hrest, rfl⟩
    exact ⟨List.cons_ne_nil _ _, List.forall_mem_cons.2 ⟨hc, mem_oneDigit_kstar.1 hrest⟩⟩
  · rintro ⟨hne, hds⟩
    obtain ⟨c, rest, rfl⟩ := List.exists_cons_of_ne_nil hne
    obtain ⟨hc, hrest⟩ := List.forall_mem_cons.1 hds
    exact ⟨[c], ⟨c, rfl, hc⟩, rest, mem_oneDigit_kstar.2 hrest, rfl⟩

theorem mem_singleton_mul {x : List Char} :
    cs ∈ ({x} : Language Char) * l ↔ ∃ w ∈ l, cs = x ++ w := by
  rw [Language.mem_mul]
  constructor
  · rintro ⟨_, rfl, w, hw, rfl⟩
    exact ⟨w, hw, rfl⟩
  · rintro ⟨w, hw, rfl⟩
    exact ⟨x, rfl, w, hw, rfl⟩

theorem mem_fractions :
    cs ∈ fractions ↔ cs = [] ∨ ∃ ds, cs = '.' :: ds ∧ ∀ c ∈ ds, c.isDigit = true := by
  rw [fractions, Language.mem_add, Language.mem_one, mem_singleton_mul]
  refine or_congr_right (exists_congr fun ds => ?_)
  rw [mem_oneDigit_kstar, and_comm]
  rfl

theorem mem_exponents :
    cs ∈ exponents ↔ ∃ c w, cs = c :: w ∧ (c = 'e' ∨ c = 'E') ∧ w ∈ wholeNumerals := by
  rw [exponents, add_mul, Language.mem_add, mem_singleton_mul, mem_singleton_mul]
  constructor
  · rintro (⟨w, hw, rfl⟩ | ⟨w, hw, rfl⟩)
    · exact ⟨'e', w, rfl, .inl rfl, hw⟩
    · exact ⟨'E', w, rfl, .inr rfl, hw⟩
  · rintro ⟨c, w, rfl, rfl | rfl, hw⟩
    · exact .inl ⟨w, hw, rfl⟩
    · exact .inr ⟨w, hw, rfl⟩

/-! ## Prefixes in a language -/

/-- The longest of the prefixes of a text that are in a language. -/
structure LongestPrefix (l : Language Char) (cs p : List Char) : Prop where
  mem : p ∈ l
  starts : p <+: cs
  longest : ∀ q ∈ l, q <+: cs → q.length ≤ p.length

/-- No prefix of a text is in a language. -/
def NoPrefix (l : Language Char) (cs : List Char) : Prop := ∀ q ∈ l, ¬q <+: cs

/-- The longest prefix of a text in a language is found, and nothing only if there is none. -/
def Finds (l : Language Char) (cs : List Char) : Option (List Char) → Prop
  | some p => LongestPrefix l cs p
  | none => NoPrefix l cs

/-- The words of `l₂` start with no character of `p`. -/
def StopsAt (p : List Char) (l₂ : Language Char) : Prop := ∀ c ∈ p, ∀ w, c :: w ∉ l₂

theorem append_isPrefix_iff {q₁ q₂ : List Char} :
    q₁ ++ q₂ <+: cs ↔ q₁ <+: cs ∧ q₂ <+: cs.drop q₁.length := by
  constructor
  · rintro ⟨rest, rfl⟩
    rw [List.append_assoc, List.drop_left]
    exact ⟨List.prefix_append _ _, List.prefix_append _ _⟩
  · rintro ⟨⟨rest, rfl⟩, h₂⟩
    rw [List.drop_left] at h₂
    exact (List.prefix_append_right_inj q₁).2 h₂

/-- A word of the first language that is shorter than the longest one has a character of it behind
it, with which no word of the second language starts. -/
theorem LongestPrefix.eq_or_eq_nil {q₁ q₂ p₁ : List Char} (h₁ : LongestPrefix l₁ cs p₁)
    (hstops : StopsAt p₁ l₂) (hq₁ : q₁ ∈ l₁) (hq₂ : q₂ ∈ l₂) (hq : q₁ ++ q₂ <+: cs) :
    q₁ = p₁ ∨ q₂ = [] := by
  have hq₁cs : q₁ <+: cs := (append_isPrefix_iff.1 hq).1
  obtain ⟨t, rfl⟩ := List.prefix_of_prefix_length_le hq₁cs h₁.starts (h₁.longest q₁ hq₁ hq₁cs)
  cases t with
  | nil => exact .inl (List.append_nil _).symm
  | cons c t =>
    cases q₂ with
    | nil => exact .inr rfl
    | cons d w =>
      -- what follows `q₁` in the text is both the rest of `p₁` and the start of `q₂`
      have hd : d :: w <+: cs.drop q₁.length := (append_isPrefix_iff.1 hq).2
      have hc : c :: t <+: cs.drop q₁.length := (append_isPrefix_iff.1 h₁.starts).2
      obtain ⟨r, hr⟩ := hd
      rw [← hr] at hc
      obtain ⟨rfl, -⟩ := List.cons_prefix_cons.1 hc
      exact absurd hq₂ (hstops c (List.mem_append_right _ List.mem_cons_self) w)

/-- Two longest parts in a row are the longest of their kind if the second cannot start with a
character of the first. -/
theorem LongestPrefix.mul {p₁ p₂ : List Char} (h₁ : LongestPrefix l₁ cs p₁)
    (h₂ : LongestPrefix l₂ (cs.drop p₁.length) p₂) (hstops : StopsAt p₁ l₂) :
    LongestPrefix (l₁ * l₂) cs (p₁ ++ p₂) where
  mem := Language.append_mem_mul h₁.mem h₂.mem
  starts := append_isPrefix_iff.2 ⟨h₁.starts, h₂.starts⟩
  longest := by
    intro q hq hqcs
    obtain ⟨q₁, hq₁, q₂, hq₂, rfl⟩ := Language.mem_mul.1 hq
    obtain ⟨hstart, hrest⟩ := append_isPrefix_iff.1 hqcs
    rw [List.length_append, List.length_append]
    rcases h₁.eq_or_eq_nil hstops hq₁ hq₂ hqcs with rfl | rfl
    · have := h₂.longest q₂ hq₂ hrest
      omega
    · have := h₁.longest q₁ hq₁ hstart
      rw [List.length_nil]
      omega

theorem NoPrefix.mul {p₁ : List Char} (h₁ : LongestPrefix l₁ cs p₁)
    (h₂ : NoPrefix l₂ (cs.drop p₁.length)) (hstops : StopsAt p₁ l₂) : NoPrefix (l₁ * l₂) cs := by
  intro q hq hqcs
  obtain ⟨q₁, hq₁, q₂, hq₂, rfl⟩ := Language.mem_mul.1 hq
  rcases h₁.eq_or_eq_nil hstops hq₁ hq₂ hqcs with rfl | rfl
  · exact h₂ q₂ hq₂ (append_isPrefix_iff.1 hqcs).2
  · exact h₂ [] hq₂ List.nil_prefix

theorem NoPrefix.mul_right (h : NoPrefix l₁ cs) : NoPrefix (l₁ * l₂) cs := by
  intro q hq hqcs
  obtain ⟨q₁, hq₁, q₂, -, rfl⟩ := Language.mem_mul.1 hq
  exact h q₁ hq₁ (append_isPrefix_iff.1 hqcs).1

theorem Finds.mul {p₁ : List Char} {found : Option (List Char)} (h₁ : LongestPrefix l₁ cs p₁)
    (h₂ : Finds l₂ (cs.drop p₁.length) found) (hstops : StopsAt p₁ l₂) :
    Finds (l₁ * l₂) cs (found.map (p₁ ++ ·)) := by
  cases found with
  | none => exact NoPrefix.mul h₁ h₂ hstops
  | some p₂ => exact h₁.mul h₂ hstops

/-- Where the one kind of words is not found, the other decides. -/
theorem Finds.add_right {found : Option (List Char)} (h : Finds l cs found)
    (hnone : NoPrefix l₁ cs) : Finds (l₁ + l) cs found := by
  cases found with
  | none => exact fun q hq => hq.elim (hnone q) (h q)
  | some p =>
    exact ⟨.inr h.mem, h.starts, fun q hq hqcs => hq.elim (fun hq => absurd hqcs (hnone q hq))
      (fun hq => h.longest q hq hqcs)⟩

/-- A part that may be missing is the longest there is, or empty. -/
theorem Finds.optional {found : Option (List Char)} (h : Finds l cs found) :
    LongestPrefix (1 + l) cs (found.getD []) := by
  cases found with
  | none =>
    refine ⟨.inl rfl, List.nil_prefix, fun q hq hqcs => ?_⟩
    rcases hq with rfl | hq
    · exact Nat.le_refl _
    · exact absurd hqcs (h q hq)
  | some p =>
    refine ⟨.inr h.mem, h.starts, fun q hq hqcs => ?_⟩
    rcases hq with rfl | hq
    · exact Nat.zero_le _
    · exact h.longest q hq hqcs

/-! ## Where the parts stop -/

theorem stopsAt_of_digits (hds : ∀ c ∈ ds, c.isDigit = true) : StopsAt ds fractions := by
  intro c hc w hw
  rcases mem_fractions.1 hw with hnil | ⟨rest, heq, -⟩
  · cases hnil
  · cases heq
    cases hds _ hc

theorem isDigit_or_eq_point (hp : p ∈ mantissas) : ∀ c ∈ p, c.isDigit = true ∨ c = '.' := by
  intro c hc
  rcases hp with hp | hp
  · obtain ⟨whole, hwhole, fraction, hfraction, rfl⟩ := Language.mem_mul.1 hp
    rcases List.mem_append.1 hc with hc | hc
    · exact .inl ((mem_digitRow.1 hwhole).2 c hc)
    · rcases mem_fractions.1 hfraction with rfl | ⟨ds, rfl, hds⟩
      · cases hc
      · rcases List.mem_cons.1 hc with hc | hc
        · exact .inr hc
        · exact .inl (hds c hc)
  · obtain ⟨ds, hds, rfl⟩ := mem_singleton_mul.1 hp
    rcases List.mem_cons.1 hc with hc | hc
    · exact .inr hc
    · exact .inl ((mem_digitRow.1 hds).2 c hc)

theorem nil_not_mem_mantissas : [] ∉ mantissas := by
  rintro (hp | hp)
  · obtain ⟨whole, hwhole, fraction, -, heq⟩ := Language.mem_mul.1 hp
    exact (mem_digitRow.1 hwhole).1 (List.append_eq_nil_iff.1 heq).1
  · obtain ⟨ds, -, heq⟩ := mem_singleton_mul.1 hp
    cases heq

/-- Neither a digit nor the point marks an exponent. -/
theorem stopsAt_of_mantissa (hp : p ∈ mantissas) : StopsAt p (1 + exponents) := by
  rintro c hc w (hnil | hw)
  · cases hnil
  · obtain ⟨mark, rest, heq, hmark, -⟩ := mem_exponents.1 hw
    cases heq
    have hc := isDigit_or_eq_point hp c hc
    rcases hmark with rfl | rfl <;> revert hc <;> decide

/-- A sign is neither a digit nor the point, and the other parts start with one of these. -/
theorem stopsAt_of_sign (hp : p ∈ signs) (hl : ∀ c w, c :: w ∈ l → c.isDigit = true ∨ c = '.') :
    StopsAt p l := by
  intro c hc w hw
  have hstart := hl c w hw
  rcases mem_signs.1 hp with rfl | rfl | rfl
  · cases hc
  · cases List.mem_singleton.1 hc
    revert hstart
    decide
  · cases List.mem_singleton.1 hc
    revert hstart
    decide

theorem start_digitRow (h : c :: ds ∈ digitRow) : c.isDigit = true ∨ c = '.' :=
  .inl ((mem_digitRow.1 h).2 c List.mem_cons_self)

theorem start_mantissas_mul (h : c :: cs ∈ mantissas * l) : c.isDigit = true ∨ c = '.' := by
  obtain ⟨q, hq, w, -, heq⟩ := Language.mem_mul.1 h
  cases q with
  | nil => exact absurd hq nil_not_mem_mantissas
  | cons d q =>
    cases heq
    exact isDigit_or_eq_point hq c List.mem_cons_self

/-! ## The parts as far as they go -/

theorem digits_longest (cs : List Char) : LongestPrefix oneDigit∗ cs (leadingDigits cs) where
  mem := mem_oneDigit_kstar.2 fun c hc => List.mem_takeWhile_imp (p := isDigit) hc
  starts := List.takeWhile_prefix _
  longest := by
    rintro q hq ⟨rest, rfl⟩
    have hdigit : ∀ c ∈ q, isDigit c = true := mem_oneDigit_kstar.1 hq
    rw [leadingDigits, List.takeWhile_append_of_pos hdigit, List.length_append]
    omega

theorem digitRow_finds (cs : List Char) :
    Finds digitRow cs (if (leadingDigits cs).isEmpty then none else some (leadingDigits cs)) := by
  obtain ⟨hmem, hstarts, hlongest⟩ := digits_longest cs
  have hlongest (q : List Char) (hq : q ∈ digitRow) (hqcs : q <+: cs) :
      q.length ≤ (leadingDigits cs).length :=
    hlongest q (mem_oneDigit_kstar.2 (mem_digitRow.1 hq).2) hqcs
  split
  · rename_i hempty
    intro q hq hqcs
    have hle := hlongest q hq hqcs
    rw [List.isEmpty_iff.1 hempty, List.length_nil, Nat.le_zero] at hle
    exact (mem_digitRow.1 hq).1 (List.length_eq_zero_iff.1 hle)
  · rename_i hempty
    refine ⟨mem_digitRow.2 ⟨?_, mem_oneDigit_kstar.1 hmem⟩, hstarts, hlongest⟩
    exact fun hnil => hempty (List.isEmpty_iff.2 hnil)

theorem sign_longest (cs : List Char) : LongestPrefix signs cs (leadingSign cs) where
  mem := (leadingSign_spec cs).2
  starts := ⟨_, (leadingSign_spec cs).1.symm⟩
  longest := by
    rintro q hq ⟨rest, rfl⟩
    rcases mem_signs.1 hq with rfl | rfl | rfl
    · exact Nat.zero_le _
    · exact Nat.le_refl _
    · exact Nat.le_refl _

theorem Finds.cons {found : Option (List Char)} (h : Finds l cs found) :
    Finds ({[c]} * l) (c :: cs) (found.map (c :: ·)) := by
  have hword (q : List Char) (hq : q ∈ ({[c]} : Language Char) * l) (hqcs : q <+: c :: cs) :
      ∃ w ∈ l, w <+: cs ∧ q = c :: w := by
    obtain ⟨w, hw, rfl⟩ := mem_singleton_mul.1 hq
    exact ⟨w, hw, (List.cons_prefix_cons.1 hqcs).2, rfl⟩
  cases found with
  | none =>
    intro q hq hqcs
    obtain ⟨w, hw, hwcs, -⟩ := hword q hq hqcs
    exact h w hw hwcs
  | some p =>
    refine ⟨mem_singleton_mul.2 ⟨p, h.mem, rfl⟩, List.cons_prefix_cons.2 ⟨rfl, h.starts⟩, ?_⟩
    intro q hq hqcs
    obtain ⟨w, hw, hwcs, rfl⟩ := hword q hq hqcs
    exact Nat.succ_le_succ (h.longest w hw hwcs)

theorem noPrefix_of_head (h : cs.head? ≠ some c) : NoPrefix ({[c]} * l) cs := by
  rintro q hq ⟨rest, rfl⟩
  obtain ⟨w, -, rfl⟩ := mem_singleton_mul.1 hq
  exact h rfl

theorem leadingFraction_of_head (h : cs.head? ≠ some '.') : Numeral.leadingFraction cs = [] := by
  unfold Numeral.leadingFraction
  split
  · exact absurd rfl h
  · rfl

theorem fraction_longest (cs : List Char) :
    LongestPrefix fractions cs (Numeral.leadingFraction cs) := by
  by_cases h : cs.head? = some '.'
  · obtain ⟨cs, rfl⟩ := List.head?_eq_some_iff.1 h
    have hdigits : Finds oneDigit∗ cs (some (leadingDigits cs)) := digits_longest cs
    exact hdigits.cons.optional
  · have hnone : Finds ({['.']} * oneDigit∗) cs none := noPrefix_of_head h
    rw [leadingFraction_of_head h]
    exact hnone.optional

/-- A fraction alone has to have a digit. -/
theorem pointed_finds (cs : List Char) : Finds ({['.']} * digitRow) cs
    (if ((Numeral.leadingFraction cs).drop 1).isEmpty then none
      else some (Numeral.leadingFraction cs)) := by
  by_cases h : cs.head? = some '.'
  · obtain ⟨cs, rfl⟩ := List.head?_eq_some_iff.1 h
    have hdigits := (digitRow_finds cs).cons (c := '.')
    rw [apply_ite (Option.map _)] at hdigits
    exact hdigits
  · rw [leadingFraction_of_head h]
    exact noPrefix_of_head h

/-- The whole and the fraction of a numeral as they are scanned. -/
theorem mantissa_finds (cs : List Char) :
    let whole := leadingDigits cs
    let fraction := Numeral.leadingFraction (cs.drop whole.length)
    Finds mantissas cs
      (if (whole ++ fraction.drop 1).isEmpty then none else some (whole ++ fraction)) := by
  intro whole fraction
  have hwhole : Finds digitRow cs (if whole.isEmpty then none else some whole) := digitRow_finds cs
  by_cases hempty : whole = []
  · -- without a digit in front of it, the fraction alone has to be the mantissa
    rw [hempty] at hwhole
    have hnone : NoPrefix (digitRow * fractions) cs := NoPrefix.mul_right hwhole
    have hfraction : fraction = Numeral.leadingFraction cs := by
      show Numeral.leadingFraction (cs.drop whole.length) = _
      rw [hempty]
      rfl
    rw [hfraction, hempty, List.nil_append, List.nil_append]
    exact (pointed_finds cs).add_right hnone
  · rw [if_neg (mt List.isEmpty_iff.1 hempty)] at hwhole
    have hdigit := (mem_digitRow.1 hwhole.mem).2
    have hnone : NoPrefix ({['.']} * digitRow) cs := by
      refine noPrefix_of_head fun hhead => ?_
      obtain ⟨rest, rfl⟩ := List.head?_eq_some_iff.1 hhead
      exact hempty rfl
    have hmul : Finds (digitRow * fractions) cs (some (whole ++ fraction)) :=
      LongestPrefix.mul hwhole (fraction_longest _) (stopsAt_of_digits hdigit)
    rw [if_neg fun h => hempty (List.append_eq_nil_iff.1 (List.isEmpty_iff.1 h)).1, mantissas,
      add_comm]
    exact hmul.add_right hnone

/-- The scanner of whole numerals finds the longest one. -/
theorem scanWhole?_finds (cs : List Char) :
    Finds wholeNumerals cs ((Numeral.scanWhole? cs).map Numeral.text) := by
  have hsign := sign_longest cs
  have hstops : StopsAt (leadingSign cs) digitRow :=
    stopsAt_of_sign hsign.mem fun c w h => start_digitRow h
  have hfinds := Finds.mul hsign (digitRow_finds _) hstops
  rw [apply_ite (Option.map _)] at hfinds
  rw [Numeral.scanWhole?, apply_ite (Option.map _)]
  simp only [Option.map_some, Numeral.text, List.append_nil]
  exact hfinds

theorem leadingExponent_of_mark (hc : c = 'e' ∨ c = 'E') : Numeral.leadingExponent (c :: cs) =
    (((Numeral.scanWhole? cs).map Numeral.text).map (c :: ·)).getD [] := by
  have hmark : (c == 'e' || c == 'E') = true := by simpa using hc
  rw [Numeral.leadingExponent, hmark, Numeral.scanWhole?]
  cases h : (leadingDigits (cs.drop (leadingSign cs).length)).isEmpty
  · simp [Numeral.text]
  · rfl

theorem leadingExponent_of_head (he : cs.head? ≠ some 'e') (hE : cs.head? ≠ some 'E') :
    Numeral.leadingExponent cs = [] := by
  cases cs with
  | nil => rfl
  | cons c cs =>
    have he : c ≠ 'e' := fun h => he (congrArg some h)
    have hE : c ≠ 'E' := fun h => hE (congrArg some h)
    have hmark : (c == 'e' || c == 'E') = false := by simp [he, hE]
    rw [Numeral.leadingExponent, hmark, Bool.false_and]
    rfl

/-- Behind its mark, an exponent is a whole numeral. -/
theorem exponent_longest (cs : List Char) :
    LongestPrefix (1 + exponents) cs (Numeral.leadingExponent cs) := by
  rw [exponents, add_mul]
  by_cases he : cs.head? = some 'e'
  · obtain ⟨cs, rfl⟩ := List.head?_eq_some_iff.1 he
    rw [leadingExponent_of_mark (.inl rfl), add_comm ({['e']} * wholeNumerals)]
    have hnone : NoPrefix ({['E']} * wholeNumerals) ('e' :: cs) := noPrefix_of_head (by simp)
    exact ((scanWhole?_finds cs).cons.add_right hnone).optional
  by_cases hE : cs.head? = some 'E'
  · obtain ⟨cs, rfl⟩ := List.head?_eq_some_iff.1 hE
    rw [leadingExponent_of_mark (.inr rfl)]
    exact ((scanWhole?_finds cs).cons.add_right (noPrefix_of_head he)).optional
  · rw [leadingExponent_of_head he hE]
    have hnone : Finds ({['E']} * wholeNumerals) cs none := noPrefix_of_head hE
    exact (hnone.add_right (noPrefix_of_head he)).optional

/-- The scanner of numerals finds the longest one. -/
theorem scan?_finds (cs : List Char) :
    Finds numerals cs ((Numeral.scan? cs).map Numeral.text) := by
  have hsign := sign_longest cs
  have hstops : StopsAt (leadingSign cs) (mantissas * (1 + exponents)) :=
    stopsAt_of_sign hsign.mem fun c w h => start_mantissas_mul h
  have hmantissa := mantissa_finds (cs.drop (leadingSign cs).length)
  rw [Numeral.scan?]
  simp only at hmantissa ⊢
  split at hmantissa
  · rename_i hempty
    rw [if_pos hempty]
    exact NoPrefix.mul hsign (NoPrefix.mul_right hmantissa) hstops
  · rename_i hempty
    rw [if_neg hempty]
    have hlong : LongestPrefix mantissas (cs.drop (leadingSign cs).length) _ := hmantissa
    have hrest := hlong.mul (exponent_longest _) (stopsAt_of_mantissa hlong.mem)
    have hall : Finds numerals cs (some _) := hsign.mul hrest hstops
    rw [List.length_append, ← List.drop_drop] at hall
    simpa only [Option.map_some, Numeral.text, List.append_assoc] using hall

end TWay.Decimal

import TWay.Proofs.Decimal.Longest
import TWay.Proofs.Text.Bytes

/-!
# Numerals cut out of the bytes of a text

A numeral is found by walking over the UTF-8 bytes of a text by index, and cut out at the index
where the walk ends (`numericPrefix?`). Every byte that is read, every difference of indices and the
cut are checked: nothing is given where one of them is out of place. The characters of numerals are
a byte each, so that the walk takes the parts that the scanners take (`numericPrefix?_eq`). Main
statement: for every text the walk comes to its end and the cut gives the longest numeral
(`longest_numeral_is_cut_out`).
-/

namespace TWay.Decimal

open Text (Narrow Walked cut? hasAt? kind_leadByte)

variable {s : String} {done rest : List Char}

/-! ## The walk -/

/-- A difference that is not negative. -/
def difference? (m n : Nat) : Option Nat := if n ≤ m then some (m - n) else none

/-- Plus or minus. -/
def isSign (c : Char) : Bool := c == '+' || c == '-'

/-- The mark of an exponent. -/
def isMark (c : Char) : Bool := c == 'e' || c == 'E'

/-- The index behind a sign; without one, the index itself. -/
def pastSign? (bytes : ByteArray) (i : Nat) : Option Nat := do
  if ← hasAt? bytes isSign i then return i + 1 else return i

/-- The index behind the digits in a row. -/
def pastDigits? (bytes : ByteArray) (i : Nat) : Option Nat :=
  if _h : i < bytes.size then
    bytes[i]?.bind fun b => if isDigit (Char.ofUInt8 b) then pastDigits? bytes (i + 1) else some i
  else some i
termination_by bytes.size - i

/-- Digits that have been passed, with a point among them or without one. -/
structure Passed where
  /-- The index behind them. -/
  stop : Nat
  /-- How many digits there are. -/
  digits : Nat

/-- The sign and the digits that a text starts with. -/
def Passed.whole? (bytes : ByteArray) : Option Passed := do
  let start ← pastSign? bytes 0
  let stop ← pastDigits? bytes start
  return ⟨stop, ← difference? stop start⟩

/-- The point and the digits behind it. They are passed only if there is a digit before the point or
behind it. -/
def Passed.fraction? (bytes : ByteArray) (m : Passed) : Option Passed := do
  if ← hasAt? bytes (· == '.') m.stop then
    let start := m.stop + 1
    let stop ← pastDigits? bytes start
    let digits := m.digits + (← difference? stop start)
    return ⟨if 0 < digits then stop else m.stop, digits⟩
  else return m

/-- The index behind an exponent. Its mark and sign are passed only if a digit follows. -/
def pastExponent? (bytes : ByteArray) (i : Nat) : Option Nat := do
  if ← hasAt? bytes isMark i then
    let start ← pastSign? bytes (i + 1)
    let stop ← pastDigits? bytes start
    return if start < stop then stop else i
  else return i

/-- What follows the whole number of a numeral. Without digits there is no exponent. -/
def Passed.tail? (bytes : ByteArray) (m : Passed) : Option Passed := do
  let m ← m.fraction? bytes
  if 0 < m.digits then return { m with stop := ← pastExponent? bytes m.stop } else return m

/-- The numeral that a text starts with, with or without fraction and exponent, found by index.
Without a digit it is empty. -/
def numericPrefix? (s : String) (fractional : Bool) : Option String := do
  let whole ← Passed.whole? s.toByteArray
  let m ← if fractional then whole.tail? s.toByteArray else some whole
  if m.digits = 0 then return "" else cut? s m.stop

/-! ## The parts of a numeral -/

theorem narrow_isSign : Narrow isSign := by
  intro c hc
  simp only [isSign, Bool.or_eq_true, beq_iff_eq] at hc
  rcases hc with rfl | rfl <;> decide

theorem narrow_isMark : Narrow isMark := by
  intro c hc
  simp only [isMark, Bool.or_eq_true, beq_iff_eq] at hc
  rcases hc with rfl | rfl <;> decide

theorem narrow_point : Narrow (· == '.') := by
  intro c hc
  rw [beq_iff_eq.1 hc]
  decide

theorem narrow_isDigit : Narrow isDigit := by
  intro c hc
  have hhigh : c.toNat ≤ 57 :=
    UInt32.le_iff_toNat_le.1 (of_decide_eq_true (Bool.and_eq_true_iff.1 hc).2)
  omega

/-- A walk over the bytes takes the characters that a scanner takes. -/
def Takes (walk : ByteArray → Nat → Option Nat) (scan : List Char → List Char) : Prop :=
  ∀ {s done rest}, Walked s done rest →
    walk s.toByteArray done.length = some (done ++ scan rest).length ∧
      Walked s (done ++ scan rest) (rest.drop (scan rest).length)

theorem leadingSign_cons (c : Char) (cs : List Char) :
    leadingSign (c :: cs) = if isSign c then [c] else [] := by
  by_cases hplus : c = '+'
  · subst hplus
    rfl
  by_cases hminus : c = '-'
  · subst hminus
    rfl
  · have hsign : isSign c = false := by simp [isSign, hplus, hminus]
    rw [hsign]
    unfold leadingSign
    split
    · rename_i heq
      exact absurd (List.cons.inj heq).1 hplus
    · rename_i heq
      exact absurd (List.cons.inj heq).1 hminus
    · rfl

theorem leadingDigits_cons (c : Char) (cs : List Char) :
    leadingDigits (c :: cs) = if isDigit c then c :: leadingDigits cs else [] := by
  rw [leadingDigits, List.takeWhile_cons]
  rfl

theorem ascii_leadingDigits (cs : List Char) : ∀ c ∈ leadingDigits cs, c.toNat < 128 :=
  fun c hc => narrow_isDigit c (List.mem_takeWhile_imp hc)

theorem pastSign_takes : Takes pastSign? leadingSign := by
  intro s done rest h
  rw [pastSign?, h.hasAt?_eq narrow_isSign]
  cases rest with
  | nil => simpa [leadingSign] using h
  | cons c rest =>
    rw [leadingSign_cons]
    cases hc : isSign c with
    | false => simpa [hc] using h
    | true =>
      have hnext : Walked s (done ++ [c]) rest := h.next narrow_isSign hc
      simpa [hc] using hnext

theorem pastDigits?_eq (h : Walked s done rest) :
    pastDigits? s.toByteArray done.length = some (done ++ leadingDigits rest).length := by
  -- a digit is one byte, so that the index moves on by one with each character of `rest`
  induction rest generalizing done with
  | nil =>
    rw [pastDigits?, dif_neg h.not_length_lt_size]
    simp [leadingDigits]
  | cons c rest ih =>
    rw [pastDigits?, dif_pos h.length_lt_size, h.next_byte, Option.bind_some,
      kind_leadByte narrow_isDigit, leadingDigits_cons]
    cases hc : isDigit c with
    | false => simp
    | true =>
      have hnext : Walked s (done ++ [c]) rest := h.next narrow_isDigit hc
      have hrest := ih hnext
      rw [List.length_append, List.length_singleton, List.append_assoc] at hrest
      simpa using hrest

theorem pastDigits_takes : Takes pastDigits? leadingDigits := fun {_ _ rest} h =>
  ⟨pastDigits?_eq h, h.part (digits_longest rest).starts (ascii_leadingDigits rest)⟩

theorem leadingExponent_cons (c : Char) (cs : List Char) :
    Numeral.leadingExponent (c :: cs) =
      if isMark c && !(leadingDigits (cs.drop (leadingSign cs).length)).isEmpty then
        c :: (leadingSign cs ++ leadingDigits (cs.drop (leadingSign cs).length))
      else [] := rfl

theorem pastExponent_takes : Takes pastExponent? Numeral.leadingExponent := by
  intro s done rest h
  rw [pastExponent?, h.hasAt?_eq narrow_isMark]
  cases rest with
  | nil => simpa [Numeral.leadingExponent] using h
  | cons c rest =>
    rw [leadingExponent_cons]
    cases hc : isMark c with
    | false => simpa [hc] using h
    | true =>
      have hmark : Walked s (done ++ [c]) rest := h.next narrow_isMark hc
      obtain ⟨hsign, hsigned⟩ := pastSign_takes hmark
      obtain ⟨hdigits, hpassed⟩ := pastDigits_takes hsigned
      -- without digits the walk ends where they would start, and goes back to the mark
      cases hempty : leadingDigits (rest.drop (leadingSign rest).length) with
      | nil =>
        rw [hempty] at hdigits
        simp only [List.append_assoc, List.append_nil, List.singleton_append, List.length_append,
          List.length_cons, List.length_nil, Nat.zero_add] at hsign hdigits
        simpa [hc, hsign, hdigits] using h
      | cons d ds =>
        rw [hempty] at hpassed hdigits
        simp only [List.append_assoc, List.cons_append, List.length_append, List.length_cons,
          List.length_nil, Nat.zero_add] at hsign hdigits
        simpa [hc, hsign, hdigits] using hpassed

theorem difference?_length (xs ys : List Char) :
    difference? (xs ++ ys).length xs.length = some ys.length := by
  rw [difference?, List.length_append, if_pos (Nat.le_add_right _ _), Nat.add_sub_cancel_left]

theorem whole?_eq (s : String) :
    let sign := leadingSign s.toList
    let unsigned := s.toList.drop sign.length
    let whole := leadingDigits unsigned
    Passed.whole? s.toByteArray = some ⟨(sign ++ whole).length, whole.length⟩ ∧
      Walked s (sign ++ whole) (unsigned.drop whole.length) := by
  intro sign unsigned whole
  obtain ⟨hsign, hsigned⟩ : pastSign? s.toByteArray 0 = some sign.length ∧ Walked s sign unsigned :=
    pastSign_takes (Walked.start s)
  obtain ⟨hdigits, hwhole⟩ := pastDigits_takes hsigned
  have hcount := difference?_length sign whole
  refine ⟨?_, hwhole⟩
  simp only [Passed.whole?, Option.bind_eq_bind, hsign, Option.bind_some, hdigits]
  rw [hcount]
  rfl

theorem leadingFraction_cons (c : Char) (cs : List Char) :
    Numeral.leadingFraction (c :: cs) = if c == '.' then c :: leadingDigits cs else [] := by
  by_cases hc : c = '.'
  · subst hc
    rfl
  · have hhead : (c :: cs).head? ≠ some '.' := fun h => hc (Option.some.inj h)
    rw [leadingFraction_of_head hhead, beq_eq_false_iff_ne.2 hc]
    rfl

theorem walked_fraction (h : Walked s done rest) :
    Walked s (done ++ Numeral.leadingFraction rest)
      (rest.drop (Numeral.leadingFraction rest).length) := by
  refine h.part (fraction_longest rest).starts fun c hc => ?_
  rcases mem_fractions.1 (fraction_longest rest).mem with hnil | ⟨ds, hcons, hds⟩
  · rw [hnil] at hc
    cases hc
  · rw [hcons] at hc
    rcases List.mem_cons.1 hc with rfl | hc
    · decide
    · exact narrow_isDigit c (hds c hc)

/-- A point alone counts no digits, and the walk goes back behind the whole number if that has none,
either. -/
theorem fraction?_eq (h : Walked s done rest) (n : Nat) :
    let fraction := Numeral.leadingFraction rest
    let digits := n + (fraction.drop 1).length
    Passed.fraction? s.toByteArray ⟨done.length, n⟩ =
      some ⟨if 0 < digits then (done ++ fraction).length else done.length, digits⟩ := by
  intro fraction digits
  rw [Passed.fraction?, h.hasAt?_eq narrow_point]
  cases rest with
  | nil => simp [fraction, digits, Numeral.leadingFraction]
  | cons c rest =>
    cases hc : c == '.' with
    | false => simp [fraction, digits, leadingFraction_cons, hc]
    | true =>
      have hpoint : Walked s (done ++ [c]) rest := h.next narrow_point hc
      have hfraction : fraction = c :: leadingDigits rest := by
        simp only [fraction, leadingFraction_cons, hc, if_true]
      have hpassed : done ++ [c] ++ leadingDigits rest = done ++ fraction := by
        rw [hfraction, List.append_assoc, List.singleton_append]
      have hstart : (done ++ [c]).length = done.length + 1 := by
        rw [List.length_append, List.length_singleton]
      have hwalk := pastDigits?_eq hpoint
      have hcount := difference?_length (done ++ [c]) (leadingDigits rest)
      have hlength : (leadingDigits rest).length = (fraction.drop 1).length := by
        rw [hfraction]
        rfl
      rw [hpassed, hstart] at hwalk hcount
      rw [hlength] at hcount
      simp only [List.head?_cons, Option.any_some, hc, if_true, Option.bind_eq_bind,
        Option.bind_some, hwalk, hcount, Option.pure_def, digits]

/-- The exponent ends where the walk over it does, and it is not looked for without digits. -/
theorem tail?_eq (h : Walked s done rest) (n : Nat) :
    let fraction := Numeral.leadingFraction rest
    let exponent := Numeral.leadingExponent (rest.drop fraction.length)
    let digits := n + (fraction.drop 1).length
    Passed.tail? s.toByteArray ⟨done.length, n⟩ =
      some ⟨if 0 < digits then (done ++ fraction ++ exponent).length else done.length, digits⟩ := by
  intro fraction exponent digits
  have hfraction : Passed.fraction? s.toByteArray ⟨done.length, n⟩ =
      some ⟨if 0 < digits then (done ++ fraction).length else done.length, digits⟩ :=
    fraction?_eq h n
  have hexponent : pastExponent? s.toByteArray (done ++ fraction).length =
      some (done ++ fraction ++ exponent).length := (pastExponent_takes (walked_fraction h)).1
  rw [Passed.tail?, hfraction]
  by_cases hdigits : 0 < digits
  · simp only [if_pos hdigits, Option.bind_eq_bind, Option.bind_some, hexponent, Option.pure_def]
  · simp [hdigits]

/-! ## The whole numeral -/

/-- What a scanner takes from the start of a text; without a numeral, nothing. -/
def leadingNumeral (fractional : Bool) (cs : List Char) : List Char :=
  ((if fractional then Numeral.scan? cs else Numeral.scanWhole? cs).map Numeral.text).getD []

theorem leadingNumeral_false (cs : List Char) : leadingNumeral false cs =
    let sign := leadingSign cs
    let whole := leadingDigits (cs.drop sign.length)
    if whole.length = 0 then [] else sign ++ whole := by
  simp only [leadingNumeral, Bool.false_eq_true, if_false, Numeral.scanWhole?, List.isEmpty_iff,
    List.length_eq_zero_iff]
  split
  · rfl
  · simp [Numeral.text]

theorem leadingNumeral_true (cs : List Char) : leadingNumeral true cs =
    let sign := leadingSign cs
    let unsigned := cs.drop sign.length
    let whole := leadingDigits unsigned
    let fraction := Numeral.leadingFraction (unsigned.drop whole.length)
    let exponent := Numeral.leadingExponent ((unsigned.drop whole.length).drop fraction.length)
    if whole.length + (fraction.drop 1).length = 0 then []
    else sign ++ whole ++ fraction ++ exponent := by
  simp only [leadingNumeral, if_true, Numeral.scan?, List.isEmpty_iff, ← List.length_append,
    List.length_eq_zero_iff]
  split
  · rfl
  · rfl

/-- Walking over the bytes gives what the scanners take from the characters. -/
theorem numericPrefix?_eq (s : String) (fractional : Bool) :
    numericPrefix? s fractional = some (String.ofList (leadingNumeral fractional s.toList)) := by
  obtain ⟨hpassed, hwhole⟩ := whole?_eq s
  rw [numericPrefix?, hpassed]
  cases fractional with
  | false =>
    simp only [leadingNumeral_false, Bool.false_eq_true, if_false, Option.bind_eq_bind,
      Option.bind_some]
    split
    · rfl
    · exact hwhole.cut?_eq
  | true =>
    have htail := tail?_eq hwhole
      (leadingDigits (s.toList.drop (leadingSign s.toList).length)).length
    have hall := (pastExponent_takes (walked_fraction hwhole)).2.cut?_eq
    simp only [leadingNumeral_true, if_true, Option.bind_eq_bind, Option.bind_some, htail]
    split
    · rfl
    · rename_i hdigits
      rw [if_pos (Nat.pos_of_ne_zero hdigits)]
      exact hall

/-- How numerals are spelled, with or without fraction and exponent. -/
def spellings (fractional : Bool) : Language Char := if fractional then numerals else wholeNumerals

theorem spellings_finds (fractional : Bool) (cs : List Char) : Finds (spellings fractional) cs
    ((if fractional then Numeral.scan? cs else Numeral.scanWhole? cs).map Numeral.text) := by
  cases fractional with
  | false => exact scanWhole?_finds cs
  | true => exact scan?_finds cs

theorem nil_not_mem_spellings (fractional : Bool) : [] ∉ spellings fractional := by
  intro h
  have hfinds := spellings_finds fractional []
  cases fractional with
  | false => exact hfinds [] h List.nil_prefix
  | true => exact hfinds [] h List.nil_prefix

/-- From every text a numeral is cut out, with or without fraction and exponent: no byte is read
outside the text, no difference of indices is negative, and the cut is between two characters. What
is cut out is what the scanner takes, and it is the longest of all prefixes of the text that are
spelled as such a numeral. It is empty exactly if no other prefix than the empty one is. -/
theorem longest_numeral_is_cut_out (s : String) (fractional : Bool) :
    ∃ t : String, numericPrefix? s fractional = some t ∧
      t.toList = leadingNumeral fractional s.toList ∧
      (t = "" ↔ ∀ q ∈ spellings fractional, q <+: s.toList → q = []) ∧
      (t ≠ "" → LongestPrefix (spellings fractional) s.toList t.toList) := by
  refine ⟨_, numericPrefix?_eq s fractional, String.toList_ofList, ?_⟩
  rw [String.toList_ofList, ne_eq, String.ofList_eq_empty_iff, leadingNumeral]
  have hfinds := spellings_finds fractional s.toList
  have hnil := nil_not_mem_spellings fractional
  generalize (if fractional then Numeral.scan? s.toList else Numeral.scanWhole? s.toList).map
    Numeral.text = found at hfinds
  cases found with
  | none =>
    refine ⟨iff_of_true rfl fun q hq hqs => absurd hqs (hfinds q hq), fun h => absurd rfl h⟩
  | some p =>
    have hp : p ≠ [] := fun h => hnil (h ▸ hfinds.mem)
    exact ⟨iff_of_false hp fun h => hp (h p hfinds.mem hfinds.starts), fun _ => hfinds⟩

example : numericPrefix? "-12.e+é" true = some "-12." := by decide +kernel
example : numericPrefix? "+.E5" true = some "" := by decide +kernel

end TWay.Decimal

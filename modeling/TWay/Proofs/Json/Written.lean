import Mathlib.Data.List.Forall2
import Mathlib.Data.List.TakeWhile
import TWay.Json.Decode
import TWay.Json.Write
import TWay.Proofs.Decimal.Leading

/-!
# What is written is read back

A record that is written as a JSON text is read from that text as it was, with all of its numbers as
long as 64 bits hold them (`Choice.ofJson?_json`, `Strength.ofJson?_json`,
`EvalOptions.ofJson?_json`). For each way to write a value there is a lemma that says which tree its
text reads as. A reader stops at the right place because what stands behind a value, the end of the
text or one of three characters, goes on with no number.
-/

namespace TWay.Json

open Decimal (leadingDigits)

/-! ## Texts that read as a tree -/

/-- What may stand behind a value inside an array or an object, and at the end of a text. -/
def Ends (rest : List Char) : Prop := ∀ c, rest.head? = some c → c = ',' ∨ c = ']' ∨ c = '}'

/-- A text that reads as this tree. It starts neither with a blank nor with the end of an array, so
that it is looked at as a value wherever it stands. -/
structure Reads (text : List Char) (j : Json) : Prop where
  starts : ∃ c cs, text = c :: cs ∧ isBlank c = false ∧ c ≠ ']'
  read : ∀ rest fuel, Ends rest → 2 * text.length ≤ fuel →
    readValue? fuel (text ++ rest) = some (j, rest)

/-- There is a character, and so there is a unit of fuel to start with. -/
theorem Reads.of_step {text : List Char} {j : Json}
    (hstarts : ∃ c cs, text = c :: cs ∧ isBlank c = false ∧ c ≠ ']')
    (hread : ∀ rest fuel, Ends rest → 2 * text.length ≤ fuel + 1 →
      readValue? (fuel + 1) (text ++ rest) = some (j, rest)) : Reads text j where
  starts := hstarts
  read rest fuel hends hfuel := by
    obtain ⟨c, cs, rfl, -, -⟩ := hstarts
    cases fuel with
    | zero => cases hfuel
    | succ fuel => exact hread rest fuel hends hfuel

theorem dropBlanks_cons {c : Char} (h : isBlank c = false) (cs : List Char) :
    dropBlanks (c :: cs) = c :: cs := by
  rw [dropBlanks, List.dropWhile_cons, h]
  rfl

/-- A text that reads as a tree has that tree. -/
theorem Reads.ofText?_eq {s : String} {j : Json} (h : Reads s.toList j) : ofText? s = some j := by
  have hread := h.read [] (enough s.toList) nofun (Nat.le_add_right _ _)
  rw [List.append_nil] at hread
  rw [ofText?]
  simp only [hread]
  rfl

/-! ## Numbers -/

/-- The digits of a natural number start with a zero only where that is all there is. -/
theorem toDigits_starts (n : Nat) : n = 0 ∨ ∃ c cs, Nat.toDigits 10 n = c :: cs ∧ c ≠ '0' := by
  induction n using Nat.strongRecOn with
  | ind n ih =>
    by_cases hn : n = 0
    · exact .inl hn
    · refine .inr ?_
      by_cases hlt : n < 10
      · have hdigit : ∀ d < 10, d ≠ 0 → Nat.digitChar d ≠ '0' := by decide
        rw [Nat.toDigits_of_lt_base hlt]
        exact ⟨_, _, rfl, hdigit n hlt hn⟩
      · rw [Nat.toDigits_eq_if (by decide), if_neg hlt]
        rcases ih (n / 10) (by omega) with hzero | ⟨c, cs, hdigits, hc⟩
        · omega
        · rw [hdigits]
          exact ⟨c, _, rfl, hc⟩

theorem isDigit_of_mem_toDigits {n : Nat} {c : Char} (h : c ∈ Nat.toDigits 10 n) :
    Decimal.isDigit c = true :=
  Nat.isDigit_of_mem_toDigits (by decide) (by decide) h

theorem leadingDigits_toDigits (n : Nat) {rest : List Char} (h : Ends rest) :
    leadingDigits (Nat.toDigits 10 n ++ rest) = Nat.toDigits 10 n := by
  refine Decimal.takeWhile_append (fun c hc => isDigit_of_mem_toDigits hc) fun c hc => ?_
  rcases h c hc with rfl | rfl | rfl <;> rfl

theorem wholeDigits?_toDigits (n : Nat) {rest : List Char} (h : Ends rest) :
    wholeDigits? (Nat.toDigits 10 n ++ rest) = some (Nat.toDigits 10 n) := by
  rw [wholeDigits?, leadingDigits_toDigits n h]
  rcases toDigits_starts n with rfl | ⟨c, cs, hdigits, hc⟩
  · rfl
  · rw [hdigits]
    split
    · rename_i hnil
      cases hnil
    · rename_i hzero
      cases hzero
      exact absurd rfl hc
    · rename_i hzero
      cases hzero
      exact absurd rfl hc
    · rfl

theorem fraction?_of_ends {rest : List Char} (h : Ends rest) : fraction? rest = some [] := by
  unfold fraction?
  split
  · rcases h '.' rfl with hc | hc | hc <;> cases hc
  · rfl

theorem exponent?_of_ends {rest : List Char} (h : Ends rest) : exponent? rest = some [] := by
  cases rest with
  | nil => rfl
  | cons c cs => rcases h c rfl with rfl | rfl | rfl <;> rfl

/-- A natural number is written by its digits. -/
def ofNat (n : Nat) : Json := .number ⟨[], Nat.toDigits 10 n, [], []⟩

theorem exists_toDigits (n : Nat) :
    ∃ d ds, Nat.toDigits 10 n = d :: ds ∧ Decimal.isDigit d = true := by
  obtain ⟨d, ds, hdigits⟩ := List.exists_cons_of_ne_nil (Nat.toDigits_ne_nil : Nat.toDigits 10 n ≠ [])
  exact ⟨d, ds, hdigits, isDigit_of_mem_toDigits (hdigits ▸ List.mem_cons_self)⟩

theorem readNumber?_toDigits (n : Nat) {rest : List Char} (h : Ends rest) :
    readNumber? (Nat.toDigits 10 n ++ rest) = some (⟨[], Nat.toDigits 10 n, [], []⟩, rest) := by
  have hunsigned : ((Nat.toDigits 10 n ++ rest).head? == some '-') = false := by
    obtain ⟨d, ds, hdigits, hd⟩ := exists_toDigits n
    rw [hdigits, List.cons_append, List.head?_cons, beq_eq_false_iff_ne]
    rintro hminus
    cases hminus
    cases hd
  rw [readNumber?, hunsigned]
  simp only [Bool.false_eq_true, if_false, List.length_nil, List.drop_zero,
    wholeDigits?_toDigits n h, Option.bind_eq_bind, Option.bind_some, List.drop_left,
    fraction?_of_ends h, exponent?_of_ends h]
  rfl

theorem isBlank_of_isDigit {d : Char} (hd : Decimal.isDigit d = true) : isBlank d = false := by
  rw [Bool.eq_false_iff]
  intro hblank
  simp only [isBlank, Bool.or_eq_true, beq_iff_eq] at hblank
  rcases hblank with ((rfl | rfl) | rfl) | rfl <;> cases hd

/-- A digit is none of the characters that another value starts with. -/
theorem readValue?_of_digit {d : Char} (hd : Decimal.isDigit d = true) (fuel : Nat)
    (cs : List Char) :
    readValue? (fuel + 1) (d :: cs) =
      (fun r : Decimal.Numeral × List Char => (.number r.1, r.2)) <$> readNumber? (d :: cs) := by
  rw [readValue?, dropBlanks_cons (isBlank_of_isDigit hd)]
  split
  case h_7 => rfl
  all_goals
    rename_i hstarts
    cases hstarts
    cases hd

theorem reads_ofNat (n : Nat) : Reads (Nat.toDigits 10 n) (ofNat n) := by
  obtain ⟨d, ds, hdigits, hd⟩ := exists_toDigits n
  refine .of_step ⟨d, ds, hdigits, isBlank_of_isDigit hd, ?_⟩ fun rest fuel hends _ => ?_
  · rintro rfl
    cases hd
  · have hread := readNumber?_toDigits n hends
    have hvalue := readValue?_of_digit hd fuel (ds ++ rest)
    rw [← List.cons_append, ← hdigits, hread] at hvalue
    exact hvalue

theorem intake_eq (digits : List Char) (significand : Nat)
    (h : Nat.ofDigitChars 10 digits significand < Nat.pow 2 64) :
    intake significand digits = (Nat.ofDigitChars 10 digits significand, []) := by
  induction digits generalizing significand with
  | nil => rfl
  | cons c cs ih =>
    rw [Nat.ofDigitChars_cons] at h ⊢
    have hle : 10 * significand + (c.toNat - '0'.toNat) ≤
        Nat.ofDigitChars 10 cs (10 * significand + (c.toNat - '0'.toNat)) := by
      have hpow : 0 < 10 ^ cs.length := Nat.pow_pos (by decide)
      rw [Nat.ofDigitChars_eq_ofDigitChars_zero]
      exact Nat.le_add_right_of_le (Nat.le_mul_of_pos_left _ hpow)
    rw [intake, if_pos (Nat.lt_of_le_of_lt hle h), ih _ h]

theorem asNat?_ofNat {n : Nat} (h : n < Nat.pow 2 64) : asNat? (ofNat n) = some n := by
  have hintake : intake 0 (Nat.toDigits 10 n) = (n, []) := by
    have hn : Nat.ofDigitChars 10 (Nat.toDigits 10 n) 0 = n := Nat.ofDigitChars_ten_toDigits
    rw [intake_eq _ _ (hn.symm ▸ h), hn]
  have hnumber : asNumber? (ofNat n) = some (.unsigned n) := by
    show Number.ofNumeral? ⟨[], Nat.toDigits 10 n, [], []⟩ = _
    rw [Number.ofNumeral?]
    simp only [hintake]
    rfl
  rw [asNat?, hnumber]

/-! ## Strings -/

/-- Whether a character needs no escape. -/
def isPlain (c : Char) : Bool := c != '"' && c != '\\' && !decide (c < ' ')

/-- No character needs an escape. -/
def Plain (cs : List Char) : Prop := cs.all isPlain = true

instance (cs : List Char) : Decidable (Plain cs) :=
  inferInstanceAs (Decidable (cs.all isPlain = true))

theorem pieces?_of_plain {cs : List Char} (h : Plain cs) (rest : List Char) :
    pieces? (cs ++ '"' :: rest) = some (cs.map .char, rest) := by
  induction cs with
  | nil => rfl
  | cons c cs ih =>
    rw [Plain, List.all_cons, Bool.and_eq_true] at h
    obtain ⟨hc, hcs⟩ := h
    simp only [isPlain, Bool.and_eq_true, bne_iff_ne, Bool.not_eq_true', decide_eq_false_iff_not]
      at hc
    obtain ⟨⟨hquote, hbackslash⟩, hcontrol⟩ := hc
    rw [List.cons_append, pieces?, if_neg hcontrol, ih hcs]
    · rfl
    · exact hquote
    · exact fun _ _ _ _ _ hc => absurd hc hbackslash
    · exact fun _ _ hc => absurd hc hbackslash

theorem characters?_map_char (cs : List Char) : characters? (cs.map .char) = some cs := by
  induction cs with
  | nil => rfl
  | cons c cs ih =>
    rw [List.map_cons, characters?, ih]
    rfl

theorem readString?_of_plain {cs : List Char} (h : Plain cs) (rest : List Char) :
    readString? (cs ++ '"' :: rest) = some (some (String.ofList cs), rest) := by
  rw [readString?, pieces?_of_plain h]
  show some ((characters? (cs.map .char)).map String.ofList, rest) = _
  rw [characters?_map_char]
  rfl

theorem reads_string {cs : List Char} (h : Plain cs) :
    Reads ('"' :: (cs ++ ['"'])) (.string (some (String.ofList cs))) := by
  refine .of_step ⟨'"', _, rfl, rfl, by decide⟩ fun rest fuel _ _ => ?_
  simp only [List.cons_append, List.append_assoc, List.nil_append]
  rw [readValue?, dropBlanks_cons rfl]
  simp only [readString?_of_plain h]
  rfl

/-! ## Rows -/

theorem ends_cons {c : Char} (h : c = ',' ∨ c = ']' ∨ c = '}') (rest : List Char) :
    Ends (c :: rest) := by
  intro c' hc
  cases hc
  exact h

/-- A row of items with its end. There is an item at least. -/
theorem readItems?_row {texts : List (List Char)} {items : List Json}
    (h : List.Forall₂ Reads texts items) (hne : texts ≠ []) (rest : List Char) :
    ∀ fuel, 2 * ([','].intercalate texts).length + 3 ≤ fuel →
      readItems? fuel ([','].intercalate texts ++ ']' :: rest) = some (items, rest) := by
  induction h with
  | nil => exact absurd rfl hne
  | @cons text item texts items htext htexts ih =>
    intro fuel hfuel
    obtain ⟨fuel, rfl⟩ : ∃ k, fuel = k + 1 := Nat.exists_eq_add_one_of_ne_zero (by omega)
    cases htexts with
    | nil =>
      rw [List.intercalate_singleton] at hfuel ⊢
      rw [readItems?, htext.read _ fuel (ends_cons (.inr (.inl rfl)) rest) (by omega)]
      rfl
    | @cons text' item' texts items htext' htexts' =>
      rw [List.intercalate_cons_cons] at hfuel ⊢
      simp only [List.append_assoc, List.length_append, List.length_cons, List.cons_append,
        List.nil_append] at hfuel ⊢
      rw [readItems?, htext.read _ fuel (ends_cons (.inl rfl) _) (by omega)]
      have hmore := ih (List.cons_ne_nil _ _) fuel (by omega)
      show (readItems? fuel _).bind _ = _
      rw [hmore]
      rfl

/-- A row that is not empty starts as its first text does. -/
theorem exists_intercalate_cons (text : List Char) (texts : List (List Char)) :
    ∃ more, [','].intercalate (text :: texts) = text ++ more := by
  cases texts with
  | nil => exact ⟨[], by rw [List.intercalate_singleton, List.append_nil]⟩
  | cons text' texts => exact ⟨_, by rw [List.intercalate_cons_cons, List.append_assoc]⟩

theorem readValue?_array {c : Char} (hblank : isBlank c = false) (hc : c ≠ ']') (fuel : Nat)
    (cs : List Char) :
    readValue? (fuel + 1) ('[' :: c :: cs) =
      (fun r : List Json × List Char => (.array r.1, r.2)) <$> readItems? fuel (c :: cs) := by
  rw [readValue?, dropBlanks_cons rfl]
  simp only [dropBlanks_cons hblank]
  split
  · rename_i hclose
    cases hclose
    exact absurd rfl hc
  · rfl

theorem reads_array {texts : List (List Char)} {items : List Json}
    (h : List.Forall₂ Reads texts items) :
    Reads ('[' :: ([','].intercalate texts ++ [']'])) (.array items) := by
  refine .of_step ⟨'[', _, rfl, rfl, by decide⟩ fun rest fuel _ hfuel => ?_
  cases h with
  | nil => rfl
  | @cons text item texts items htext htexts =>
    have hrow := readItems?_row (.cons htext htexts) (List.cons_ne_nil _ _) rest fuel (by
      simp only [List.length_cons, List.length_append, List.length_nil] at hfuel
      omega)
    obtain ⟨c, cs, rfl, hblank, hc⟩ := htext.starts
    obtain ⟨more, hmore⟩ := exists_intercalate_cons (c :: cs) texts
    rw [hmore] at hrow ⊢
    simp only [List.cons_append, List.append_assoc, List.nil_append] at hrow ⊢
    rw [readValue?_array hblank hc, hrow]
    rfl

/-- A text that reads as this entry of an object. -/
inductive ReadsEntry : List Char → Option String × Json → Prop
  | mk {key value : List Char} {j : Json} (hkey : Plain key) (hvalue : Reads value j) :
    ReadsEntry ('"' :: (key ++ '"' :: ':' :: value)) (some (String.ofList key), j)

theorem readEntries?_cons {key : List Char} (hkey : Plain key) (fuel : Nat) (cs : List Char) :
    readEntries? (fuel + 1) ('"' :: (key ++ '"' :: ':' :: cs)) =
      (readValue? fuel cs).bind fun r =>
        match dropBlanks r.2 with
        | ',' :: cs => (readEntries? fuel cs).bind fun more =>
          some ((some (String.ofList key), r.1) :: more.1, more.2)
        | '}' :: rest => some ([(some (String.ofList key), r.1)], rest)
        | _ => none := by
  rw [readEntries?, dropBlanks_cons rfl]
  simp only [readString?_of_plain hkey]
  rfl

/-- A row of entries with its end. There is an entry at least. -/
theorem readEntries?_row {texts : List (List Char)} {entries : List (Option String × Json)}
    (h : List.Forall₂ ReadsEntry texts entries) (hne : texts ≠ []) (rest : List Char) :
    ∀ fuel, 2 * ([','].intercalate texts).length + 3 ≤ fuel →
      readEntries? fuel ([','].intercalate texts ++ '\x7d' :: rest) = some (entries, rest) := by
  induction h with
  | nil => exact absurd rfl hne
  | @cons text entry texts entries htext htexts ih =>
    intro fuel hfuel
    obtain ⟨fuel, rfl⟩ : ∃ k, fuel = k + 1 := Nat.exists_eq_add_one_of_ne_zero (by omega)
    cases htext with
    | @mk key value j hkey hvalue =>
      cases htexts with
      | nil =>
        rw [List.intercalate_singleton] at hfuel ⊢
        simp only [List.append_assoc, List.length_append, List.length_cons,
          List.cons_append] at hfuel ⊢
        rw [readEntries?_cons hkey,
          hvalue.read _ fuel (ends_cons (.inr (.inr rfl)) rest) (by omega)]
        rfl
      | @cons text' entry' texts entries htext' htexts' =>
        rw [List.intercalate_cons_cons] at hfuel ⊢
        simp only [List.append_assoc, List.length_append, List.length_cons, List.cons_append,
          List.nil_append] at hfuel ⊢
        rw [readEntries?_cons hkey, hvalue.read _ fuel (ends_cons (.inl rfl) _) (by omega)]
        have hmore := ih (List.cons_ne_nil _ _) fuel (by omega)
        show (readEntries? fuel _).bind _ = _
        rw [hmore]
        rfl

theorem readValue?_object {c : Char} (hblank : isBlank c = false) (hc : c ≠ '\x7d') (fuel : Nat)
    (cs : List Char) :
    readValue? (fuel + 1) ('\x7b' :: c :: cs) =
      (fun r : List (Option String × Json) × List Char => (.object r.1, r.2)) <$>
        readEntries? fuel (c :: cs) := by
  rw [readValue?, dropBlanks_cons rfl]
  simp only [dropBlanks_cons hblank]
  split
  · rename_i hclose
    cases hclose
    exact absurd rfl hc
  · rfl

theorem reads_object {texts : List (List Char)} {entries : List (Option String × Json)}
    (h : List.Forall₂ ReadsEntry texts entries) :
    Reads ('\x7b' :: ([','].intercalate texts ++ ['\x7d'])) (.object entries) := by
  refine .of_step ⟨'\x7b', _, rfl, rfl, by decide⟩ fun rest fuel _ hfuel => ?_
  cases h with
  | nil => rfl
  | @cons text entry texts entries htext htexts =>
    have hrow := readEntries?_row (.cons htext htexts) (List.cons_ne_nil _ _) rest fuel (by
      simp only [List.length_cons, List.length_append, List.length_nil] at hfuel
      omega)
    obtain ⟨cs, rfl⟩ : ∃ cs, text = '"' :: cs := by
      cases htext
      exact ⟨_, rfl⟩
    obtain ⟨more, hmore⟩ := exists_intercalate_cons ('"' :: cs) texts
    rw [hmore] at hrow ⊢
    simp only [List.cons_append, List.append_assoc, List.nil_append] at hrow ⊢
    rw [readValue?_object rfl (by decide), hrow]
    rfl

/-! ## Written texts -/

/-- A written text reads as this tree. -/
def Writes (s : String) (j : Json) : Prop := Reads s.toList j

theorem writes_toString (n : Nat) : Writes (toString n) (ofNat n) := by
  rw [Writes, Nat.toString_eq_repr, Nat.toList_repr]
  exact reads_ofNat n

theorem writes_jsonArray {items : List String} {js : List Json}
    (h : List.Forall₂ Writes items js) : Writes (jsonArray items) (.array js) := by
  have htext : (jsonArray items).toList =
      '[' :: ([','].intercalate (items.map String.toList) ++ [']']) := by
    simp [jsonArray, String.toList_intercalate]
  rw [Writes, htext]
  exact reads_array (List.forall₂_map_left_iff.2 h)

theorem readsEntry_jsonField {key value : String} {j : Json} (hkey : Plain key.toList)
    (hvalue : Writes value j) : ReadsEntry (jsonField key value).toList (some key, j) := by
  have htext : (jsonField key value).toList = '"' :: (key.toList ++ '"' :: ':' :: value.toList) := by
    simp [jsonField]
  have hentry := ReadsEntry.mk hkey hvalue
  rw [String.ofList_toList] at hentry
  rw [htext]
  exact hentry

theorem writes_jsonObject {fields : List String} {entries : List (Option String × Json)}
    (h : List.Forall₂ (fun field entry => ReadsEntry field.toList entry) fields entries) :
    Writes (jsonObject fields) (.object entries) := by
  have htext : (jsonObject fields).toList =
      '\x7b' :: ([','].intercalate (fields.map String.toList) ++ ['\x7d']) := by
    simp [jsonObject, String.toList_intercalate]
  rw [Writes, htext]
  exact reads_object (List.forall₂_map_left_iff.2 h)

theorem writes_quoted {text : String} (h : Plain text.toList) :
    Writes (String.join ["\"", text, "\""]) (.string (some text)) := by
  have htext : (String.join ["\"", text, "\""]).toList = '"' :: (text.toList ++ ['"']) := by
    simp
  have hstring := reads_string h
  rw [String.ofList_toList] at hstring
  rw [Writes, htext]
  exact hstring

theorem asList?_ofNat {ns : List Nat} (h : ∀ n ∈ ns, n < Nat.pow 2 64) :
    asList? asNat? (.array (ns.map ofNat)) = some ns := by
  show (ns.map ofNat).mapM asNat? = some ns
  induction ns with
  | nil => rfl
  | cons n ns ih =>
    rw [List.forall_mem_cons] at h
    rw [List.map_cons, List.mapM_cons, asNat?_ofNat h.1, ih h.2]
    rfl

end TWay.Json

namespace TWay

open Json

/-! ## Records -/

/-- A choice is read back, as long as 64 bits hold its numbers. -/
theorem Choice.ofJson?_json {c : Choice} (hpid : c.pid < Nat.pow 2 64) (hvid : c.vid < Nat.pow 2 64) :
    (ofText? c.json).bind Choice.ofJson? = some c := by
  have hwrites : Writes c.json (.object [(some "pid", ofNat c.pid), (some "vid", ofNat c.vid)]) :=
    writes_jsonObject <| .cons (readsEntry_jsonField (by decide) (writes_toString _)) <|
      .cons (readsEntry_jsonField (by decide) (writes_toString _)) .nil
  rw [Reads.ofText?_eq hwrites]
  show ((asNat? (ofNat c.pid)).bind fun pid => (asNat? (ofNat c.vid)).bind fun vid =>
    some (⟨pid, vid⟩ : Choice)) = some c
  rw [asNat?_ofNat hpid, asNat?_ofNat hvid]
  rfl

/-- A strength is read back with its parameters in their order, as long as 64 bits hold its
numbers. -/
theorem Strength.ofJson?_json {s : Strength} (hpids : ∀ pid ∈ s.pids, pid < Nat.pow 2 64)
    (hdegree : s.degree < Nat.pow 2 64) : (ofText? s.json).bind Strength.ofJson? = some s := by
  have hitems : List.Forall₂ Writes (s.pids.map toString) (s.pids.map ofNat) := by
    rw [List.forall₂_map_left_iff, List.forall₂_map_right_iff]
    exact List.forall₂_same.2 fun pid _ => writes_toString pid
  have hwrites : Writes s.json
      (.object [(some "pids", .array (s.pids.map ofNat)), (some "degree", ofNat s.degree)]) :=
    writes_jsonObject <| .cons (readsEntry_jsonField (by decide) (writes_jsonArray hitems)) <|
      .cons (readsEntry_jsonField (by decide) (writes_toString _)) .nil
  rw [Reads.ofText?_eq hwrites]
  show ((asList? asNat? (.array (s.pids.map ofNat))).bind fun pids =>
    (asNat? (ofNat s.degree)).bind fun degree => some (⟨pids, degree⟩ : Strength)) = some s
  rw [asList?_ofNat hpids, asNat?_ofNat hdegree]
  rfl

/-- The options of an evaluation are read back. -/
theorem EvalOptions.ofJson?_json (o : EvalOptions) :
    (ofText? o.json).bind EvalOptions.ofJson? = some o := by
  obtain ⟨policy⟩ := o
  have hplain : Plain policy.name.toList := by cases policy <;> decide
  have hwrites : Writes (EvalOptions.json ⟨policy⟩)
      (.object [(some "policy", .string (some policy.name))]) :=
    writes_jsonObject (.cons (readsEntry_jsonField (by decide) (writes_quoted hplain)) .nil)
  rw [Reads.ofText?_eq hwrites]
  cases policy <;> rfl

end TWay

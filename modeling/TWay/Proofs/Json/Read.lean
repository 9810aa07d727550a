import Mathlib.Data.Nat.Init
import TWay.Json.Read

/-!
# How much fuel a JSON text needs

A JSON text is read by recursion on fuel. Each value, each item and each entry takes at least one
character, so that nesting and rows use up no more than two units for each of them. With that many
units or more the same is read, or nothing is for the same reason (`readValue?_of_enough`), and no
text is refused for lack of fuel.
-/

namespace TWay.Json

variable {α : Type} {fuel : Nat}

/-! ## What is left -/

/-- Whatever is read, less is left than there was. -/
def Shortens (read : List Char → Option (α × List Char)) : Prop :=
  ∀ cs a rest, read cs = some (a, rest) → rest.length < cs.length

theorem length_of_dropBlanks {c : Char} {cs rest : List Char} (h : dropBlanks cs = c :: rest) :
    rest.length < cs.length := by
  have hle : (dropBlanks cs).length ≤ cs.length := (List.dropWhile_suffix isBlank).length_le
  rwa [h, List.length_cons] at hle

theorem length_of_dropBlanks_word (c : Char) (word : List Char) {cs rest : List Char}
    (h : dropBlanks cs = c :: (word ++ rest)) : rest.length < cs.length := by
  have hlt := length_of_dropBlanks h
  rw [List.length_append] at hlt
  omega

theorem length_dropBlanks_le (cs : List Char) : (dropBlanks cs).length ≤ cs.length :=
  (List.dropWhile_suffix isBlank).length_le

theorem pieces?_shortens : Shortens pieces? := by
  intro cs
  fun_induction pieces? cs with
  | case1 =>
    intro ps rest h
    cases h
  | case2 cs =>
    intro ps rest h
    cases h
    exact Nat.lt_succ_self _
  | case3 a b c d cs ih =>
    intro ps rest h
    obtain ⟨unit, -, h⟩ := Option.bind_eq_some_iff.1 h
    obtain ⟨⟨ps', _⟩, hps, h⟩ := Option.bind_eq_some_iff.1 h
    cases h
    have hlt := ih ps' rest hps
    simp only [List.length_cons]
    omega
  | case4 e cs _ ih =>
    intro ps rest h
    obtain ⟨c, -, h⟩ := Option.bind_eq_some_iff.1 h
    obtain ⟨⟨ps', _⟩, hps, h⟩ := Option.bind_eq_some_iff.1 h
    cases h
    have hlt := ih ps' rest hps
    simp only [List.length_cons]
    omega
  | case5 =>
    intro ps rest h
    cases h
  | case6 c cs _ _ _ _ _ ih =>
    intro ps rest h
    obtain ⟨⟨ps', _⟩, hps, h⟩ := Option.bind_eq_some_iff.1 h
    cases h
    exact Nat.lt_succ_of_lt (ih ps' rest hps)

theorem readString?_shortens : Shortens readString? := by
  intro cs text rest h
  obtain ⟨⟨ps, _⟩, hps, h⟩ := Option.bind_eq_some_iff.1 h
  cases h
  exact pieces?_shortens cs ps rest hps

/-- A number has at least one digit before the point. -/
theorem wholeDigits?_ne_nil {cs digits : List Char} (h : wholeDigits? cs = some digits) :
    digits ≠ [] ∧ cs ≠ [] := by
  constructor
  · rintro rfl
    unfold wholeDigits? at h
    split at h
    · cases h
    · cases h
    · cases h
    · rename_i hnil _ _
      exact hnil (Option.some.inj h)
  · rintro rfl
    cases h

theorem readNumber?_shortens : Shortens readNumber? := by
  intro cs n rest h
  obtain ⟨whole, hwhole, h⟩ := Option.bind_eq_some_iff.1 h
  obtain ⟨fraction, -, h⟩ := Option.bind_eq_some_iff.1 h
  obtain ⟨exponent, -, h⟩ := Option.bind_eq_some_iff.1 h
  cases h
  obtain ⟨hdigits, hunsigned⟩ := wholeDigits?_ne_nil hwhole
  have hdigits := List.length_pos_iff.2 hdigits
  have hunsigned := List.length_pos_iff.2 hunsigned
  simp only [List.length_drop] at hunsigned ⊢
  omega

theorem readValue?_shortens (hitems : Shortens (readItems? fuel))
    (hentries : Shortens (readEntries? fuel)) : Shortens (readValue? (fuel + 1)) := by
  intro cs value rest h
  rw [readValue?] at h
  split at h
  · rename_i hcs
    cases h
    exact length_of_dropBlanks_word 'n' ['u', 'l', 'l'] hcs
  · rename_i hcs
    cases h
    exact length_of_dropBlanks_word 't' ['r', 'u', 'e'] hcs
  · rename_i hcs
    cases h
    exact length_of_dropBlanks_word 'f' ['a', 'l', 's', 'e'] hcs
  · rename_i cs' hcs
    obtain ⟨⟨text, _⟩, htext, h⟩ := Option.map_eq_some_iff.1 h
    cases h
    exact Nat.lt_trans (readString?_shortens cs' text rest htext) (length_of_dropBlanks hcs)
  · rename_i cs' hcs
    have hlt := length_of_dropBlanks hcs
    split at h
    · rename_i hclose
      cases h
      exact Nat.lt_trans (length_of_dropBlanks hclose) hlt
    · obtain ⟨⟨items, _⟩, hread, h⟩ := Option.map_eq_some_iff.1 h
      cases h
      have hle := length_dropBlanks_le cs'
      have hlt' := hitems _ items rest hread
      omega
  · rename_i cs' hcs
    have hlt := length_of_dropBlanks hcs
    split at h
    · rename_i hclose
      cases h
      exact Nat.lt_trans (length_of_dropBlanks hclose) hlt
    · obtain ⟨⟨entries, _⟩, hread, h⟩ := Option.map_eq_some_iff.1 h
      cases h
      have hle := length_dropBlanks_le cs'
      have hlt' := hentries _ entries rest hread
      omega
  · obtain ⟨⟨n, _⟩, hn, h⟩ := Option.map_eq_some_iff.1 h
    cases h
    exact Nat.lt_of_lt_of_le (readNumber?_shortens _ n rest hn) (length_dropBlanks_le cs)

theorem readItems?_shortens (hvalue : Shortens (readValue? fuel))
    (hitems : Shortens (readItems? fuel)) : Shortens (readItems? (fuel + 1)) := by
  intro cs items rest h
  rw [readItems?] at h
  obtain ⟨⟨item, cs'⟩, hitem, h⟩ := Option.bind_eq_some_iff.1 h
  have hlt := hvalue cs item cs' hitem
  dsimp only at h
  split at h
  · rename_i more hcomma
    have hlt' := length_of_dropBlanks hcomma
    obtain ⟨⟨items', rest'⟩, hmore, h⟩ := Option.bind_eq_some_iff.1 h
    have hlt'' := hitems more items' rest' hmore
    cases h
    dsimp only
    omega
  · rename_i hclose
    have hlt' := length_of_dropBlanks hclose
    cases h
    omega
  · cases h

theorem readEntries?_shortens (hvalue : Shortens (readValue? fuel))
    (hentries : Shortens (readEntries? fuel)) : Shortens (readEntries? (fuel + 1)) := by
  intro cs entries rest h
  rw [readEntries?] at h
  split at h
  · rename_i cs₁ hquote
    have hlt₁ := length_of_dropBlanks hquote
    obtain ⟨⟨key, cs₂⟩, hkey, h⟩ := Option.bind_eq_some_iff.1 h
    have hlt₂ := readString?_shortens cs₁ key cs₂ hkey
    dsimp only at h
    split at h
    · rename_i cs₃ hcolon
      have hlt₃ := length_of_dropBlanks hcolon
      obtain ⟨⟨value, cs₄⟩, hread, h⟩ := Option.bind_eq_some_iff.1 h
      have hlt₄ := hvalue cs₃ value cs₄ hread
      dsimp only at h
      split at h
      · rename_i more hcomma
        have hlt₅ := length_of_dropBlanks hcomma
        obtain ⟨⟨entries', rest'⟩, hmore, h⟩ := Option.bind_eq_some_iff.1 h
        have hlt₆ := hentries more entries' rest' hmore
        cases h
        dsimp only
        omega
      · rename_i hclose
        have hlt₅ := length_of_dropBlanks hclose
        cases h
        omega
      · cases h
    · cases h
  · cases h

theorem read_shortens (fuel : Nat) :
    Shortens (readValue? fuel) ∧ Shortens (readItems? fuel) ∧ Shortens (readEntries? fuel) := by
  induction fuel with
  | zero =>
    refine ⟨?_, ?_, ?_⟩
    all_goals
      intro cs a rest h
      cases h
  | succ fuel ih =>
    obtain ⟨hvalue, hitems, hentries⟩ := ih
    exact ⟨readValue?_shortens hitems hentries, readItems?_shortens hvalue hitems,
      readEntries?_shortens hvalue hentries⟩

/-! ## Enough fuel -/

/-- With two units for each character and some more, one unit on top changes nothing. -/
def Settled (more : Nat) (read : Nat → List Char → Option (α × List Char)) (fuel : Nat) : Prop :=
  ∀ cs : List Char, 2 * cs.length + more ≤ fuel → read (fuel + 1) cs = read fuel cs

theorem readValue?_settled (hitems : Settled 2 readItems? fuel)
    (hentries : Settled 2 readEntries? fuel) : Settled 1 readValue? (fuel + 1) := by
  intro cs h
  rw [readValue?, readValue?]
  split
  · rfl
  · rfl
  · rfl
  · rfl
  · rename_i cs' hcs
    have hlt := length_of_dropBlanks hcs
    have hle := length_dropBlanks_le cs'
    split
    · rfl
    · rw [hitems _ (by omega)]
  · rename_i cs' hcs
    have hlt := length_of_dropBlanks hcs
    have hle := length_dropBlanks_le cs'
    split
    · rfl
    · rw [hentries _ (by omega)]
  · rfl

theorem readItems?_settled (hvalue : Settled 1 readValue? fuel)
    (hitems : Settled 2 readItems? fuel) : Settled 2 readItems? (fuel + 1) := by
  intro cs h
  rw [readItems?, readItems?, hvalue cs (by omega)]
  refine Option.bind_congr fun ⟨item, rest⟩ hitem => ?_
  have hlt := (read_shortens fuel).1 cs item rest hitem
  dsimp only
  split
  · rename_i more hcomma
    have hlt' := length_of_dropBlanks hcomma
    rw [hitems more (by omega)]
  · rfl
  · rfl

theorem readEntries?_settled (hvalue : Settled 1 readValue? fuel)
    (hentries : Settled 2 readEntries? fuel) : Settled 2 readEntries? (fuel + 1) := by
  intro cs h
  rw [readEntries?, readEntries?]
  split
  · rename_i cs₁ hquote
    have hlt₁ := length_of_dropBlanks hquote
    refine Option.bind_congr fun ⟨key, cs₂⟩ hkey => ?_
    have hlt₂ := readString?_shortens cs₁ key cs₂ hkey
    dsimp only
    split
    · rename_i cs₃ hcolon
      have hlt₃ := length_of_dropBlanks hcolon
      rw [hvalue cs₃ (by omega)]
      refine Option.bind_congr fun ⟨value, cs₄⟩ hread => ?_
      have hlt₄ := (read_shortens fuel).1 cs₃ value cs₄ hread
      dsimp only
      split
      · rename_i more hcomma
        have hlt₅ := length_of_dropBlanks hcomma
        rw [hentries more (by omega)]
      · rfl
      · rfl
    · rfl
  · rfl

theorem read_settled (fuel : Nat) :
    Settled 1 readValue? fuel ∧ Settled 2 readItems? fuel ∧ Settled 2 readEntries? fuel := by
  induction fuel with
  | zero =>
    refine ⟨?_, ?_, ?_⟩
    all_goals
      intro cs h
      omega
  | succ fuel ih =>
    obtain ⟨hvalue, hitems, hentries⟩ := ih
    exact ⟨readValue?_settled hitems hentries, readItems?_settled hvalue hitems,
      readEntries?_settled hvalue hentries⟩

/-- With more fuel than `enough` the same is read. -/
theorem readValue?_of_enough {cs : List Char} (h : enough cs ≤ fuel) :
    readValue? fuel cs = readValue? (enough cs) cs := by
  induction fuel, h using Nat.le_induction with
  | base => rfl
  | succ fuel hle ih =>
    have hsettled : 2 * cs.length + 1 ≤ fuel := by
      unfold enough at hle
      omega
    rw [(read_settled fuel).1 cs hsettled, ih]

end TWay.Json

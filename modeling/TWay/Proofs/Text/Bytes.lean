/-!
# Places in the bytes of a text

A text is stored as the UTF-8 bytes of its characters. A reader that looks at the bytes for
characters in ASCII cannot be misled, since no byte of another character looks like one of them
(`kind_leadByte`). As long as it has passed characters in ASCII only, the number of them is the
index of the byte that comes next (`Walked`), and the text may be cut there (`Walked.cut?_eq`).
-/

namespace TWay.Text

variable {s : String} {kind : Char → Bool} {done rest p : List Char} {c : Char}

/-! ## Reading and cutting -/

/-- Whether the byte at an index is the code of a character of a kind. No byte is read at the end or
behind it. -/
def hasAt? (bytes : ByteArray) (kind : Char → Bool) (i : Nat) : Option Bool :=
  if i < bytes.size then bytes[i]?.map fun b => kind (Char.ofUInt8 b) else some false

/-- The text before an index, which has to be between two characters or at either end. -/
def cut? (s : String) (i : Nat) : Option String :=
  if h : String.Pos.Raw.IsValid s ⟨i⟩ then some (s.sliceTo (s.pos ⟨i⟩ h)).copy else none

/-! ## Bytes and characters -/

/-- The characters of a kind are all in ASCII. -/
def Narrow (kind : Char → Bool) : Prop := ∀ c, kind c = true → c.toNat < 128

/-- The first byte of a character. -/
def leadByte (c : Char) : UInt8 := (String.utf8EncodeChar c).head String.utf8EncodeChar_ne_nil

theorem toNat_ofUInt8 (b : UInt8) : (Char.ofUInt8 b).toNat = b.toNat := UInt8.toNat_toUInt32 b

theorem toNat_leadByte (hc : c.toNat < 128) : (leadByte c).toNat = c.toNat := by
  have hle : c.val.toNat ≤ 127 := Nat.le_of_lt_succ hc
  simp only [leadByte, String.utf8EncodeChar, if_pos hle, List.head_cons]
  exact UInt8.toNat_ofNat_of_lt' (by rw [UInt8.size]; omega)

theorem le_toNat_leadByte (hc : 128 ≤ c.toNat) : 128 ≤ (leadByte c).toNat := by
  have hlt : ¬c.val.toNat ≤ 127 := Nat.not_le.2 hc
  simp only [leadByte, String.utf8EncodeChar, if_neg hlt]
  split
  · rw [List.head_cons, UInt8.toNat_ofNat']
    omega
  · split
    · rw [List.head_cons, UInt8.toNat_ofNat']
      omega
    · rw [List.head_cons, UInt8.toNat_ofNat']
      omega

/-- A character in ASCII is its only byte, and the others start with a byte outside ASCII: the first
byte tells whether a character is of a kind. -/
theorem kind_leadByte (hkind : Narrow kind) (c : Char) :
    kind (Char.ofUInt8 (leadByte c)) = kind c := by
  by_cases hc : c.toNat < 128
  · have heq : (Char.ofUInt8 (leadByte c)).toNat = c.toNat := by
      rw [toNat_ofUInt8, toNat_leadByte hc]
    rw [Char.toNat_inj.1 heq]
  · have hlead : 128 ≤ (Char.ofUInt8 (leadByte c)).toNat := by
      rw [toNat_ofUInt8]
      exact le_toNat_leadByte (Nat.not_lt.1 hc)
    have hleft : kind (Char.ofUInt8 (leadByte c)) ≠ true := by
      intro h
      have := hkind _ h
      omega
    have hright : kind c ≠ true := fun h => hc (hkind c h)
    rw [Bool.eq_false_iff.2 hleft, Bool.eq_false_iff.2 hright]

/-! ## Places in the bytes -/

/-- Characters of a byte each have been passed, and others follow. So the number of those passed is
the index of the byte that comes next. -/
structure Walked (s : String) (done rest : List Char) : Prop where
  chars : s.toList = done ++ rest
  ascii : ∀ c ∈ done, c.toNat < 128

theorem utf8Size_of_ascii (hc : c.toNat < 128) : c.utf8Size = 1 := by
  rw [Char.utf8Size_eq_one_iff, UInt32.le_iff_toNat_le]
  exact Nat.le_of_lt_succ hc

theorem utf8Encode_cons (c : Char) (rest : List Char) :
    (c :: rest).utf8Encode = (String.utf8EncodeChar c).toByteArray ++ rest.utf8Encode := by
  rw [List.utf8Encode_cons, List.utf8Encode_singleton]

theorem size_utf8Encode_cons (c : Char) (rest : List Char) :
    (c :: rest).utf8Encode.size = c.utf8Size + rest.utf8Encode.size := by
  rw [utf8Encode_cons, ByteArray.size_append, List.size_toByteArray, String.length_utf8EncodeChar]

theorem size_utf8Encode_of_ascii (h : ∀ c ∈ done, c.toNat < 128) :
    done.utf8Encode.size = done.length := by
  induction done with
  | nil => rfl
  | cons c done ih =>
    obtain ⟨hc, hdone⟩ := List.forall_mem_cons.1 h
    rw [size_utf8Encode_cons, utf8Size_of_ascii hc, ih hdone, List.length_cons, Nat.add_comm]

theorem getElem_utf8Encode_cons (h : 0 < (c :: rest).utf8Encode.size) :
    (c :: rest).utf8Encode[0] = leadByte c := by
  have hpos : 0 < (String.utf8EncodeChar c).toByteArray.size := by
    rw [List.size_toByteArray, String.length_utf8EncodeChar]
    exact c.utf8Size_pos
  simp only [utf8Encode_cons, ByteArray.getElem_append_left hpos, List.getElem_toByteArray]
  rw [leadByte, List.head_eq_getElem]

namespace Walked

theorem start (s : String) : Walked s [] s.toList := ⟨rfl, fun _ hc => nomatch hc⟩

theorem append (h : Walked s done (p ++ rest)) (hp : ∀ c ∈ p, c.toNat < 128) :
    Walked s (done ++ p) rest where
  chars := by rw [h.chars, List.append_assoc]
  ascii := fun c hc => (List.mem_append.1 hc).elim (h.ascii c) (hp c)

theorem bytes (h : Walked s done rest) : s.toByteArray = done.utf8Encode ++ rest.utf8Encode := by
  rw [← String.utf8Encode_toList, h.chars, List.utf8Encode_append]

theorem size (h : Walked s done rest) :
    s.toByteArray.size = done.length + rest.utf8Encode.size := by
  rw [h.bytes, ByteArray.size_append, size_utf8Encode_of_ascii h.ascii]

theorem length_lt_size (h : Walked s done (c :: rest)) : done.length < s.toByteArray.size := by
  have hpos := c.utf8Size_pos
  rw [h.size, size_utf8Encode_cons]
  omega

theorem not_length_lt_size (h : Walked s done []) : ¬done.length < s.toByteArray.size := by
  rw [h.size, List.utf8Encode_nil]
  exact Nat.lt_irrefl _

/-- The byte that comes next is the first one of the character that comes next. -/
theorem next_byte (h : Walked s done (c :: rest)) :
    s.toByteArray[done.length]? = some (leadByte c) := by
  have hsize := size_utf8Encode_of_ascii h.ascii
  have hpos : 0 < (c :: rest).utf8Encode.size := by
    have hlt := h.length_lt_size
    have heq := h.size
    omega
  rw [getElem?_pos s.toByteArray done.length h.length_lt_size, ← getElem_utf8Encode_cons hpos]
  simp only [h.bytes, ByteArray.getElem_append_right (Nat.le_of_eq hsize), hsize, Nat.sub_self]

theorem hasAt?_eq (h : Walked s done rest) (hkind : Narrow kind) :
    hasAt? s.toByteArray kind done.length = some (rest.head?.any kind) := by
  cases rest with
  | nil => rw [hasAt?, if_neg h.not_length_lt_size]; rfl
  | cons c rest =>
    rw [hasAt?, if_pos h.length_lt_size, h.next_byte, Option.map_some, kind_leadByte hkind]
    rfl

/-- The text may be cut between what has been passed and what follows. -/
theorem cut?_eq (h : Walked s done rest) : cut? s done.length = some (String.ofList done) := by
  have hsize : (String.ofList done).rawEndPos = ⟨done.length⟩ := by
    rw [← size_utf8Encode_of_ascii h.ascii, ← String.toByteArray_ofList]
    rfl
  have happend : s = String.ofList done ++ String.ofList rest := by
    rw [← String.ofList_append, ← h.chars, String.ofList_toList]
  have hvalid : String.Pos.Raw.IsValid s ⟨done.length⟩ :=
    String.Pos.Raw.isValid_iff_exists_append.2 ⟨_, _, happend, hsize.symm⟩
  rw [cut?, dif_pos hvalid]
  have hsplits : (s.pos ⟨done.length⟩ hvalid).Splits (String.ofList done) (String.ofList rest) :=
    ⟨happend, hsize.symm⟩
  rw [hsplits.copy_sliceTo_eq]

/-- The next character has been passed, too. -/
theorem next (h : Walked s done (c :: rest)) (hkind : Narrow kind) (hc : kind c = true) :
    Walked s (done ++ [c]) rest := by
  refine h.append (p := [c]) fun d hd => ?_
  rw [List.mem_singleton.1 hd]
  exact hkind c hc

/-- The next part has been passed, too. -/
theorem part (h : Walked s done rest) (hp : p <+: rest) (hascii : ∀ c ∈ p, c.toNat < 128) :
    Walked s (done ++ p) (rest.drop p.length) := by
  obtain ⟨t, rfl⟩ := hp
  rw [List.drop_left]
  exact h.append hascii

end Walked

end TWay.Text

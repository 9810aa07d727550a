import TWay.Coverage.Counter

/-!
# What a counter goes through

The digits behind the first one go through all of their readings before the first one moves on, and
then start again (`readings_cons`). From the start on, this is a loop over the values of the first
digit around the readings of the others (`values_readings_cons`).
-/

namespace TWay

theorem Digit.reset_of_first? {radix : Nat} {d : Digit} (h : first? radix = some d) :
    d.reset = d := by
  rw [first?, Option.dite_none_right_eq_some] at h
  obtain ⟨_, h⟩ := h
  cases h
  rfl

theorem Digit.reset_of_next? {d d' : Digit} (h : d.next? = some d') : d'.reset = d.reset := by
  simp only [reset, (next?_eq_some h).1]

namespace Counter

theorem readings_eq (c : Counter) : readings c = c :: (next? c).elim [] readings := by
  rw [readings]
  split <;> simp_all

theorem map_reset_of_next? {c c' : Counter} (h : next? c = some c') :
    c'.map Digit.reset = c.map Digit.reset := by
  induction c generalizing c' with
  | nil => cases h
  | cons d rest ih =>
    rcases next?_cons_eq_some h with ⟨rest', hrest, rfl⟩ | ⟨d', -, hd, rfl⟩
    · rw [List.map_cons, List.map_cons, ih hrest]
    · rw [List.map_cons, List.map_cons, Digit.reset_of_next? hd, List.map_map]
      rfl

theorem map_reset_of_start {radices : List Nat} {start : Counter}
    (h : radices.mapM Digit.first? = some start) : start.map Digit.reset = start := by
  induction radices generalizing start with
  | nil =>
    cases h
    rfl
  | cons radix radices ih =>
    rw [List.mapM_cons] at h
    obtain ⟨d, hd, h⟩ := Option.bind_eq_some_iff.1 h
    obtain ⟨rest, hrest, h⟩ := Option.bind_eq_some_iff.1 h
    cases h
    rw [List.map_cons, Digit.reset_of_first? hd, ih hrest]

/-- The other digits come first. The induction is along the readings that they go through. -/
theorem readings_cons (d : Digit) (c : Counter) :
    readings (d :: c) = (readings c).map (d :: ·) ++
      d.next?.elim [] fun d' => readings (d' :: c.map Digit.reset) := by
  induction c using readings.induct with
  | case1 c ih =>
    rw [readings_eq (d :: c), readings_eq c, next?]
    cases hnext : next? c with
    | some c' =>
      rw [Option.elim_some, Option.elim_some, ih c' hnext, map_reset_of_next? hnext]
      rfl
    | none => cases d.next? <;> rfl

/-- While the other digits are at their start, the first one has the values from its own on. -/
theorem values_readings_cons {c : Counter} (hstart : c.map Digit.reset = c) {radix value : Nat}
    (hlt : value < radix) :
    (readings (⟨radix, value, hlt⟩ :: c)).map values =
      (List.range' value (radix - value)).flatMap fun v =>
        ((readings c).map values).map (v :: ·) := by
  induction hk : radix - value generalizing value with
  | zero => omega
  | succ k ih =>
    rw [readings_cons, hstart, List.map_append, List.range'_succ, List.flatMap_cons]
    congr 1
    · simp [values]
    · by_cases hnext : value + 1 < radix
      · rw [Digit.next?, dif_pos hnext, Option.elim_some]
        exact ih hnext (by omega)
      · have hk : k = 0 := by omega
        rw [Digit.next?, dif_neg hnext, hk]
        rfl

end Counter

end TWay

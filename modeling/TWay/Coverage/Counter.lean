/-!
# Counters

A counter goes through the choices of one entry from each of several lists. Its digits have radices
of their own, the last digit changes fastest, and a digit that runs over starts again and moves on
the one before it. Each step leaves one reading less to come (`Counter.left_of_next?`), so that a
counter ends.
-/

namespace TWay

/-- A digit below its radix. -/
structure Digit where
  radix : Nat
  value : Nat
  lt : value < radix

namespace Digit

/-- The digit to start with; a radix of zero has none. -/
def first? (radix : Nat) : Option Digit :=
  if h : 0 < radix then some ⟨radix, 0, h⟩ else none

/-- The digit one greater, as long as it is below the radix. -/
def next? (d : Digit) : Option Digit :=
  if h : d.value + 1 < d.radix then some ⟨d.radix, d.value + 1, h⟩ else none

/-- The digit started again. -/
def reset (d : Digit) : Digit := ⟨d.radix, 0, Nat.zero_lt_of_lt d.lt⟩

theorem next?_eq_some {d d' : Digit} (h : d.next? = some d') :
    d'.radix = d.radix ∧ d'.value = d.value + 1 := by
  rw [next?, Option.dite_none_right_eq_some] at h
  obtain ⟨_, h⟩ := h
  cases h
  exact ⟨rfl, rfl⟩

theorem next?_eq_none {d : Digit} (h : d.next? = none) : d.radix = d.value + 1 := by
  have hlast : ¬ d.value + 1 < d.radix := by simpa [next?] using h
  have := d.lt
  omega

end Digit

/-- The digits, the one that changes slowest first (`vids` and `radices` in `targets`). -/
abbrev Counter := List Digit

namespace Counter

/-- The values of the digits. -/
def values (c : Counter) : List Nat := c.map Digit.value

/-- The reading after this one: the last digit that can move on does, and those behind it start
again (the inner loop of `targets`). -/
def next? : Counter → Option Counter
  | [] => none
  | d :: rest =>
    match next? rest with
    | some rest => some (d :: rest)
    | none => d.next?.map (· :: rest.map Digit.reset)

/-- The number of readings. -/
def capacity : Counter → Nat
  | [] => 1
  | d :: rest => d.radix * capacity rest

/-- The number of readings that are still to come. -/
def left : Counter → Nat
  | [] => 0
  | d :: rest => (d.radix - 1 - d.value) * capacity rest + left rest

variable {c c' : Counter} {d : Digit}

theorem next?_cons_eq_some (h : next? (d :: c) = some c') :
    (∃ rest, next? c = some rest ∧ c' = d :: rest) ∨
      ∃ d', next? c = none ∧ d.next? = some d' ∧ c' = d' :: c.map Digit.reset := by
  cases hrest : next? c with
  | some rest =>
    rw [next?, hrest, Option.some.injEq] at h
    exact .inl ⟨rest, rfl, h.symm⟩
  | none =>
    rw [next?, hrest] at h
    obtain ⟨d', hd', rfl⟩ := Option.map_eq_some_iff.1 h
    exact .inr ⟨d', rfl, hd', rfl⟩

theorem next?_cons_eq_none (h : next? (d :: c) = none) : next? c = none ∧ d.next? = none := by
  cases hrest : next? c with
  | some rest =>
    rw [next?, hrest] at h
    cases h
  | none =>
    rw [next?, hrest] at h
    exact ⟨rfl, Option.map_eq_none_iff.1 h⟩

theorem capacity_map_reset (c : Counter) : capacity (c.map Digit.reset) = capacity c := by
  induction c with
  | nil => rfl
  | cons d rest ih => simp only [List.map_cons, capacity, ih, Digit.reset]

theorem left_map_reset (c : Counter) : left (c.map Digit.reset) + 1 = capacity c := by
  induction c with
  | nil => rfl
  | cons d rest ih =>
    obtain ⟨k, hk⟩ : ∃ k, d.radix = k + 1 :=
      Nat.exists_eq_add_one_of_ne_zero (Nat.ne_zero_of_lt d.lt)
    simp only [List.map_cons, capacity, left, Digit.reset, capacity_map_reset, hk]
    rw [Nat.add_sub_cancel, Nat.sub_zero, Nat.add_assoc, ih, Nat.add_mul, Nat.one_mul]

theorem left_eq_zero (h : next? c = none) : left c = 0 := by
  induction c with
  | nil => rfl
  | cons d rest ih =>
    obtain ⟨hrest, hd⟩ := next?_cons_eq_none h
    have hlast : d.radix - 1 - d.value = 0 := by
      rw [Digit.next?_eq_none hd]
      omega
    rw [left, hlast, Nat.zero_mul, ih hrest]

/-- A step takes one of the readings still to come. The digits that start again after the last of
theirs have a full round ahead of them, less the reading that the step arrives at. -/
theorem left_of_next? (h : next? c = some c') :
    capacity c' = capacity c ∧ left c = left c' + 1 := by
  induction c generalizing c' with
  | nil => cases h
  | cons d rest ih =>
    rcases next?_cons_eq_some h with ⟨rest', hrest, rfl⟩ | ⟨d', hrest, hd, rfl⟩
    · obtain ⟨hcapacity, hleft⟩ := ih hrest
      simp only [capacity, left, hcapacity, hleft, Nat.add_assoc, and_self]
    · obtain ⟨hradix, hvalue⟩ := Digit.next?_eq_some hd
      have hlt := d'.lt
      have hround : d.radix - 1 - d.value = d.radix - 1 - (d.value + 1) + 1 := by omega
      simp only [capacity, left, capacity_map_reset, hradix, hvalue, true_and]
      rw [left_eq_zero hrest, hround, Nat.add_assoc, left_map_reset, Nat.add_mul, Nat.one_mul,
        Nat.add_zero]

/-- The counter and all readings after it (the outer loop of `targets`). -/
def readings (c : Counter) : List Counter :=
  c :: match h : next? c with
    | some c' =>
      have : left c' < left c := (left_of_next? h).2 ▸ Nat.lt_succ_self _
      readings c'
    | none => []
termination_by left c

end Counter

end TWay

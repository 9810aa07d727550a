import TWay.Coverage.Strength

/-!
# What combinations there are

The combinations of the places in a list, and with them the subsets of a strength, are its
selections: the sublists of a length, those with an entry before those without it
(`Strength.subsets_eq`).
-/

namespace TWay

variable {α β : Type}

/-- The selections of `t` entries: first those with the head, then those without it. -/
def selections : Nat → List α → List (List α)
  | 0, _ => [[]]
  | _ + 1, [] => []
  | t + 1, x :: xs => (selections t xs).map (x :: ·) ++ selections (t + 1) xs

theorem mem_selections {t : Nat} {xs c : List α} :
    c ∈ selections t xs ↔ c.Sublist xs ∧ c.length = t := by
  fun_induction selections t xs generalizing c with
  | case1 xs =>
    simp only [List.mem_singleton, List.length_eq_zero_iff]
    exact ⟨fun h => ⟨h ▸ List.nil_sublist xs, h⟩, fun h => h.2⟩
  | case2 t =>
    simp only [List.not_mem_nil, List.sublist_nil, false_iff, not_and]
    rintro rfl
    simp
  | case3 t x xs ihwith ihwithout =>
    simp only [List.mem_append, List.mem_map, ihwith, ihwithout, List.sublist_cons_iff]
    constructor
    · rintro (⟨c, ⟨hc, hlen⟩, rfl⟩ | ⟨hc, hlen⟩)
      · exact ⟨.inr ⟨c, rfl, hc⟩, by simp [hlen]⟩
      · exact ⟨.inl hc, hlen⟩
    · rintro ⟨hc | ⟨c, rfl, hc⟩, hlen⟩
      · exact .inr ⟨hc, hlen⟩
      · exact .inl ⟨c, ⟨hc, by simpa using hlen⟩, rfl⟩

/-- Too short a list has no selection. -/
theorem selections_eq_nil {t : Nat} {xs : List α} (h : xs.length < t) : selections t xs = [] := by
  refine List.eq_nil_iff_forall_not_mem.2 fun c hc => ?_
  obtain ⟨hle, hlen⟩ := mem_selections.1 hc
  have := hle.length_le
  omega

/-- Every entry is in one of the selections. They are not too short to have one, and the list is not
too short for them. -/
theorem exists_selection_of_mem {t : Nat} {x : α} {xs : List α} (hx : x ∈ xs) (hpos : 0 < t)
    (hle : t ≤ xs.length) : ∃ c ∈ selections t xs, x ∈ c := by
  fun_induction selections t xs with
  | case1 xs => omega
  | case2 t => cases hx
  | case3 t y ys ihwith ihwithout =>
    rw [List.length_cons] at hle
    have hfirst : y :: ys.take t ∈ (selections t ys).map (y :: ·) := by
      refine List.mem_map_of_mem (mem_selections.2 ⟨List.take_sublist t ys, ?_⟩)
      rw [List.length_take]
      omega
    rcases List.mem_cons.1 hx with rfl | hx
    · exact ⟨_, List.mem_append_left _ hfirst, List.mem_cons_self⟩
    · by_cases hroom : t + 1 ≤ ys.length
      · obtain ⟨c, hc, hmem⟩ := ihwithout hx hpos hroom
        exact ⟨c, List.mem_append_right _ hc, hmem⟩
      · have hall : ys.take t = ys := List.take_of_length_le (by omega)
        exact ⟨_, List.mem_append_left _ hfirst, List.mem_cons_of_mem y (by rwa [hall])⟩

/-- Selections of entries with a property are selected from these entries. -/
theorem filter_selections (p : α → Bool) (t : Nat) (xs : List α) :
    (selections t xs).filter (List.all · p) = selections t (xs.filter p) := by
  fun_induction selections t xs with
  | case1 xs => simp [selections]
  | case2 t => rfl
  | case3 t x xs ihwith ihwithout =>
    rw [List.filter_append, List.filter_map, ihwithout]
    by_cases hx : p x = true
    · simp [hx, selections, Function.comp_def, ihwith]
    · simp [hx, Function.comp_def]

/-- Entries that are found by a lookup are selected with it. -/
theorem map_filterMap_selections {f : α → Option β} {t : Nat} {xs : List α} {ys : List β}
    (h : xs.map f = ys.map some) :
    (selections t xs).map (List.filterMap f) = selections t ys := by
  fun_induction selections t xs generalizing ys with
  | case1 xs => simp [selections]
  | case2 t =>
    obtain rfl : ys = [] := by simpa using h.symm
    rfl
  | case3 t x xs ihwith ihwithout =>
    cases ys with
    | nil => simp at h
    | cons y ys =>
      obtain ⟨hx, hxs⟩ := List.cons.inj h
      simp only [selections, List.map_append, List.map_map, ← ihwith hxs, ← ihwithout hxs]
      simp [Function.comp_def, List.filterMap_cons_some hx]

/-- The selections from a range by their first entry, which leaves room for the others. -/
theorem selections_range' (t a k : Nat) :
    selections (t + 1) (List.range' a k) =
      (List.range' a (k - t)).flatMap fun i =>
        (selections t (List.range' (i + 1) (a + k - (i + 1)))).map (i :: ·) := by
  induction k generalizing a with
  | zero => simp [selections]
  | succ k ih =>
    have hend : a + 1 + k = a + (k + 1) := by omega
    rw [List.range'_succ, selections, ih, hend]
    by_cases hroom : t ≤ k
    · rw [Nat.succ_sub hroom, List.range'_succ, List.flatMap_cons, ← hend, Nat.add_sub_cancel_left]
    · rw [selections_eq_nil (by simpa using hroom), Nat.sub_eq_zero_of_le (by omega),
        Nat.sub_eq_zero_of_le (by omega)]
      rfl

/-- While enough numbers are left, the continuations are the selections from those that remain. -/
theorem continuations_eq {n missing start : Nat} {current : List Nat} (h : missing ≤ n) :
    continuations n missing start current =
      (selections missing (List.range' start (n - start))).map (current ++ ·) := by
  induction missing generalizing start current with
  | zero => simp [continuations, selections]
  | succ missing ih =>
    have hcount : n - (missing + 1) + 1 - start = n - start - missing := by omega
    rw [continuations, selections_range', hcount, List.map_flatMap]
    by_cases hstart : start ≤ n
    · simp only [ih (Nat.le_of_succ_le h), Nat.add_sub_cancel' hstart, List.map_map,
        Function.comp_def, List.append_assoc, List.singleton_append]
    · rw [Nat.sub_eq_zero_of_le (Nat.le_of_not_le hstart), Nat.zero_sub]
      rfl

theorem combinations_eq (n t : Nat) : combinations n t = selections t (List.range n) := by
  rw [combinations]
  split
  · exact (selections_eq_nil (by simpa)).symm
  · rw [continuations_eq (by omega), List.range_eq_range']
    simp

theorem Strength.subsets_eq (s : Strength) : s.subsets = selections s.degree s.pids := by
  rw [subsets, combinations_eq]
  refine map_filterMap_selections (List.ext_getElem (by simp) fun i hi _ => ?_)
  have hplace : i < s.pids.length := by simpa using hi
  rw [List.getElem_map, List.getElem_map, List.getElem_range, List.getElem?_eq_getElem hplace]

theorem Strength.mem_of_mem_subset {s : Strength} {pids : List ParamId} {pid : ParamId}
    (hpids : pids ∈ s.subsets) (hpid : pid ∈ pids) : pid ∈ s.pids :=
  (mem_selections.1 (s.subsets_eq ▸ hpids)).1.mem hpid

end TWay

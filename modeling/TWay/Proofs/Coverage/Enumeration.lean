import Mathlib.Data.List.Lex
import Mathlib.Data.List.Sort
import Mathlib.Data.Nat.Choose.Basic
import TWay.Proofs.Coverage.Combinations

/-!
# What the combinations are

The combinations of `t` numbers below `n` are all ascending lists of them, each once, in
lexicographic order, and as many as the binomial coefficient says (`combinations_enumerate`). Since
they are the selections of a range, that is a matter of selections: of any list there is a binomial
coefficient of them, and of an ascending one they ascend. The recursion takes two differences, the
numbers still missing and the last one that leaves room for them, and neither is ever negative
(`combinations?_eq`).
-/

namespace TWay

variable {α β : Type} {n t : Nat}

/-! ## Selections -/

theorem length_selections (t : Nat) (xs : List α) :
    (selections t xs).length = xs.length.choose t := by
  fun_induction selections t xs with
  | case1 xs => simp
  | case2 t => simp
  | case3 t x xs ihwith ihwithout =>
    rw [List.length_append, List.length_map, ihwith, ihwithout, List.length_cons,
      Nat.choose_succ_succ]

/-- Of an ascending list, those with the head come before those without it. -/
theorem selections_ascending {r : α → α → Prop} {xs : List α} (h : xs.Pairwise r) :
    (selections t xs).Pairwise (List.Lex r) := by
  fun_induction selections t xs with
  | case1 xs => exact List.pairwise_singleton _ _
  | case2 t => exact List.Pairwise.nil
  | case3 t x xs ihwith ihwithout =>
    obtain ⟨hhead, htail⟩ := List.pairwise_cons.1 h
    refine List.pairwise_append.2 ⟨?_, ihwithout htail, fun c hc c' hc' => ?_⟩
    · exact (ihwith htail).map _ fun _ _ hlex => .cons hlex
    · obtain ⟨rest, -, rfl⟩ := List.mem_map.1 hc
      obtain ⟨hle, hlen⟩ := mem_selections.1 hc'
      cases c' with
      | nil => cases hlen
      | cons y rest' => exact .rel (hhead y (hle.mem List.mem_cons_self))

/-! ## Combinations -/

/-- Some of the numbers below a bound, in their order. -/
theorem sublist_range_iff {c : List Nat} :
    c.Sublist (List.range n) ↔ c.Pairwise (· < ·) ∧ ∀ i ∈ c, i < n := by
  constructor
  · intro hle
    exact ⟨List.pairwise_lt_range.sublist hle, fun i hi => List.mem_range.1 (hle.mem hi)⟩
  · rintro ⟨hascending, hbelow⟩
    have hsub : c ⊆ List.range n := fun i hi => List.mem_range.2 (hbelow i hi)
    have hnodup : c.Nodup := hascending.imp Nat.ne_of_lt
    exact List.sublist_of_subperm_of_pairwise (List.subperm_of_subset hnodup hsub) hascending
      List.pairwise_lt_range

theorem mem_combinations {c : List Nat} :
    c ∈ combinations n t ↔ c.length = t ∧ c.Pairwise (· < ·) ∧ ∀ i ∈ c, i < n := by
  rw [combinations_eq, mem_selections, sublist_range_iff, and_comm]

/-! ## Differences -/

/-- The continuations with `missing` told by the length of the list so far, and nothing as soon as
one of the two differences would be negative. -/
def continuations? (n t start : Nat) (current : List Nat) : Option (List (List Nat)) :=
  if current.length = t then some [current]
  else if _h : current.length < t ∧ t - current.length ≤ n then
    let last := n - (t - current.length)
    List.flatten <$> (List.range' start (last + 1 - start)).mapM fun i =>
      continuations? n t (i + 1) (current ++ [i])
  else none
termination_by t - current.length
decreasing_by
  rw [List.length_append, List.length_singleton]
  omega

/-- The combinations, or nothing where a difference would be negative on the way. -/
def combinations? (n t : Nat) : Option (List (List Nat)) :=
  if n < t then some [] else continuations? n t 0 []

/-- What is missing is never more than there are numbers. One number more is one fewer missing, so
that this carries over to the calls inside. -/
theorem continuations?_eq {missing start : Nat} {current : List Nat}
    (hlen : current.length + missing = t) (hroom : missing ≤ n) :
    continuations? n t start current = some (continuations n missing start current) := by
  induction missing generalizing start current with
  | zero =>
    rw [continuations?, if_pos ((Nat.add_zero _).symm.trans hlen)]
    rfl
  | succ missing ih =>
    have hmissing : t - current.length = missing + 1 := by omega
    have hinner (i : Nat) : continuations? n t (i + 1) (current ++ [i]) =
        pure (continuations n missing (i + 1) (current ++ [i])) := by
      refine ih ?_ (Nat.le_of_succ_le hroom)
      rw [List.length_append, List.length_singleton]
      omega
    rw [continuations?, if_neg (by omega), dif_pos ⟨by omega, by omega⟩, hmissing]
    simp only [hinner, List.mapM_pure, map_pure, continuations, List.flatMap_def]
    rfl

theorem combinations?_eq (n t : Nat) : combinations? n t = some (combinations n t) := by
  rw [combinations?, combinations]
  split
  · rfl
  · exact continuations?_eq (by simp) (by omega)

/-! ## Subsets -/

/-- Where each entry is found, none is lost. -/
theorem map_some_filterMap {f : α → Option β} {xs : List α} (h : ∀ x ∈ xs, ∃ y, f x = some y) :
    (xs.filterMap f).map some = xs.map f := by
  induction xs with
  | nil => rfl
  | cons x xs ih =>
    obtain ⟨⟨y, hy⟩, hxs⟩ := List.forall_mem_cons.1 h
    rw [List.filterMap_cons_some hy, List.map_cons, List.map_cons, ih hxs, hy]

/-- The subsets of a strength stand for the combinations of places one by one, with a parameter at
each place. -/
theorem Strength.map_some_subsets (s : Strength) :
    s.subsets.map (List.map some) =
      (combinations s.pids.length s.degree).map (List.map fun i => s.pids[i]?) := by
  rw [subsets, List.map_map]
  refine List.map_congr_left fun places hplaces => map_some_filterMap fun i hi => ?_
  have hlt : i < s.pids.length := (mem_combinations.1 hplaces).2.2 i hi
  exact ⟨s.pids[i], List.getElem?_eq_getElem hlt⟩

/-- Combinations are the ascending lists of `t` numbers below `n`, each of them and nothing else. In
the enumeration they ascend in lexicographic order, so that none comes twice, and there are as many
as the binomial coefficient says, none if `n < t`. No difference on the way is negative. The subsets
of a strength are therefore all selections of as many of its parameters as the degree says: one for
each combination of places, in the same order, with a parameter at every place. -/
theorem combinations_enumerate (n t : Nat) (s : Strength) :
    (∀ c, c ∈ combinations n t ↔ c.length = t ∧ c.Pairwise (· < ·) ∧ ∀ i ∈ c, i < n) ∧
    (combinations n t).Pairwise (List.Lex (· < ·)) ∧
    (combinations n t).length = n.choose t ∧
    combinations? n t = some (combinations n t) ∧
    (∀ pids, pids ∈ s.subsets ↔ pids.Sublist s.pids ∧ pids.length = s.degree) ∧
    s.subsets.map (List.map some) =
      (combinations s.pids.length s.degree).map (List.map fun i => s.pids[i]?) := by
  refine ⟨fun c => mem_combinations, ?_, ?_, combinations?_eq n t, fun pids => ?_,
    s.map_some_subsets⟩
  · rw [combinations_eq]
    exact selections_ascending List.pairwise_lt_range
  · rw [combinations_eq, length_selections, List.length_range]
  · rw [Strength.subsets_eq, mem_selections]

end TWay

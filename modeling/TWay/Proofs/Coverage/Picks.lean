import Mathlib.Algebra.BigOperators.Group.List.Basic
import Mathlib.Algebra.Ring.Nat
import Mathlib.Data.List.Forall2
import Mathlib.Data.List.Lex
import TWay.Proofs.Coverage.Combinations

/-!
# One from each

A target picks one of the choices for each of its parameters. Which targets there are, in which
order, and how many of them, is therefore a matter of lists: what is picked from several lists is in
the order of their entries, as many as the product of their lengths, and nothing as soon as one of
them is empty. From the last it follows that what is picked for the selections of a list does not
depend on entries that leave nothing to pick (`flatMap_picks_selections`).
-/

namespace TWay

variable {α β : Type} {f : α → List β} {xs : List α} {ys : List β}

/-- Every list of one entry of `f x` for each `x`, the last one changing fastest. -/
def picks (f : α → List β) : List α → List (List β)
  | [] => [[]]
  | x :: xs => (f x).flatMap fun y => (picks f xs).map (y :: ·)

theorem mem_picks : ys ∈ picks f xs ↔ List.Forall₂ (fun y x => y ∈ f x) ys xs := by
  induction xs generalizing ys with
  | nil => simp [picks]
  | cons x xs ih =>
    simp only [picks, List.mem_flatMap, List.mem_map, ih, List.forall₂_cons_right_iff]
    constructor
    · rintro ⟨y, hy, ys, hys, rfl⟩
      exact ⟨y, ys, hy, hys, rfl⟩
    · rintro ⟨y, ys, hy, hys, rfl⟩
      exact ⟨y, hy, ys, hys, rfl⟩

theorem forall_of_forall₂ {p : β → Prop} (h : List.Forall₂ (fun (_ : α) y => p y) xs ys) :
    ∀ y ∈ ys, p y := by
  induction h with
  | nil => simp
  | cons hy _ ih => exact List.forall_mem_cons.2 ⟨hy, ih⟩

theorem length_picks (f : α → List β) (xs : List α) :
    (picks f xs).length = (xs.map fun x => (f x).length).prod := by
  induction xs with
  | nil => rfl
  | cons x xs ih =>
    rw [picks, List.length_flatMap, List.map_cons, List.prod_cons, ← ih]
    simp only [List.length_map, List.map_const', List.sum_replicate_nat]

/-- The first place where two of them differ is decided by the order of the entries there. -/
theorem picks_pairwise {r : β → β → Prop} (h : ∀ x ∈ xs, (f x).Pairwise r) :
    (picks f xs).Pairwise (List.Lex r) := by
  induction xs with
  | nil => exact List.pairwise_singleton _ _
  | cons x xs ih =>
    obtain ⟨hx, hxs⟩ := List.forall_mem_cons.1 h
    rw [picks, List.pairwise_flatMap]
    constructor
    · intro y _
      exact (ih hxs).map _ fun _ _ hlex => .cons hlex
    · apply hx.imp
      intro y y' hr ys hys ys' hys'
      obtain ⟨rest, -, rfl⟩ := List.mem_map.1 hys
      obtain ⟨rest', -, rfl⟩ := List.mem_map.1 hys'
      exact .rel hr

theorem picks_eq_nil {x : α} (hx : x ∈ xs) (hnil : f x = []) : picks f xs = [] := by
  induction xs with
  | nil => cases hx
  | cons x' xs ih =>
    rcases List.mem_cons.1 hx with rfl | hx
    · rw [picks, hnil, List.flatMap_nil]
    · simp [picks, ih hx]

theorem flatMap_filter (p : α → Bool) (f : α → List β) (xs : List α) :
    (xs.filter p).flatMap f = xs.flatMap fun x => if p x then f x else [] := by
  induction xs with
  | nil => rfl
  | cons x xs ih => by_cases hx : p x = true <;> simp [hx, ih]

/-- A condition on all entries is one on each. -/
theorem filter_picks (p : β → Bool) (f : α → List β) (xs : List α) :
    (picks f xs).filter (List.all · p) = picks (fun x => (f x).filter p) xs := by
  induction xs with
  | nil => rfl
  | cons x xs ih =>
    rw [picks, picks, List.filter_flatMap, flatMap_filter, ← ih]
    refine List.flatMap_congr fun y _ => ?_
    rw [List.filter_map]
    by_cases hy : p y = true <;> simp [Function.comp_def, hy]

/-- Only lists without an empty one leave something to pick. -/
theorem flatMap_picks_filter (f : α → List β) (lists : List (List α)) :
    (lists.filter (List.all · fun x => !(f x).isEmpty)).flatMap (picks f) =
      lists.flatMap (picks f) := by
  rw [flatMap_filter]
  refine List.flatMap_congr fun c _ => ?_
  by_cases hc : c.all (fun x => !(f x).isEmpty) = true
  · rw [if_pos hc]
  · rw [if_neg hc]
    simp only [List.all_eq_true, Bool.not_eq_true', List.isEmpty_eq_false_iff, not_forall,
      Classical.not_not, exists_prop] at hc
    obtain ⟨x, hx, hnil⟩ := hc
    exact (picks_eq_nil hx hnil).symm

/-- Entries without anything to pick are as good as not there. -/
theorem flatMap_picks_selections (f : α → List β) (t : Nat) (xs : List α) :
    (selections t (xs.filter fun x => !(f x).isEmpty)).flatMap (picks f) =
      (selections t xs).flatMap (picks f) := by
  rw [← filter_selections, flatMap_picks_filter]

end TWay

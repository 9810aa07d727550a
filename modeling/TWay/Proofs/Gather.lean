import TWay.Gather
import TWay.Proofs.Except

/-!
# What is gathered

Whatever gathers the results of steps made side by side has something to give just if each step has
a result, and then gives these in the order of the steps (`Gather.Spec.map_eq_ok_iff`); otherwise it
fails as one of the steps does (`Gather.Spec.exists_of_map_eq_error`). Gathering one result after the
other is such a way (`Gather.inOrder_spec`).
-/

namespace TWay.Gather

variable {ε α β : Type} {gather : Gather ε β}

/-- Among results there is a failure, or all of them are values. -/
theorem exists_error_or_values (results : List (Except ε β)) :
    (∃ e, .error e ∈ results) ∨ ∃ bs : List β, results = bs.map .ok := by
  induction results with
  | nil => exact .inr ⟨[], rfl⟩
  | cons result results ih =>
    cases result with
    | error e => exact .inl ⟨e, List.mem_cons_self⟩
    | ok b =>
      rcases ih with ⟨e, he⟩ | ⟨bs, rfl⟩
      · exact .inl ⟨e, List.mem_cons_of_mem _ he⟩
      · exact .inr ⟨b :: bs, rfl⟩

namespace Spec

theorem eq_ok_iff (h : gather.Spec) {results : List (Except ε β)} {bs : List β} :
    gather results = .ok bs ↔ results = bs.map .ok := by
  constructor
  · intro hgather
    rcases exists_error_or_values results with hfail | ⟨bs', rfl⟩
    · obtain ⟨e, he, -⟩ := h.failure results hfail
      rw [he] at hgather
      cases hgather
    · rw [h.values] at hgather
      cases hgather
      rfl
  · rintro rfl
    exact h.values bs

theorem mem_of_eq_error (h : gather.Spec) {results : List (Except ε β)} {e : ε}
    (hgather : gather results = .error e) : .error e ∈ results := by
  rcases exists_error_or_values results with hfail | ⟨bs, rfl⟩
  · obtain ⟨e', he', hmem⟩ := h.failure results hfail
    rw [he'] at hgather
    cases hgather
    exact hmem
  · rw [h.values] at hgather
    cases hgather

variable {f : α → Except ε β} {xs : List α}

theorem map_eq_ok_iff (h : gather.Spec) {bs : List β} :
    gather (xs.map f) = .ok bs ↔ List.Forall₂ (fun x b => f x = .ok b) xs bs := by
  rw [h.eq_ok_iff, ← List.forall₂_eq_eq_eq, List.forall₂_map_left_iff, List.forall₂_map_right_iff]

theorem exists_of_map_eq_error (h : gather.Spec) {e : ε}
    (hgather : gather (xs.map f) = .error e) : ∃ x ∈ xs, f x = .error e :=
  List.mem_map.1 (h.mem_of_eq_error hgather)

/-- There is something to give just if each step has a result. -/
theorem exists_map_eq_ok (h : gather.Spec) :
    (∃ bs, gather (xs.map f) = .ok bs) ↔ ∀ x ∈ xs, ∃ b, f x = .ok b := by
  simp only [h.map_eq_ok_iff, ← mapM_eq_ok_iff, exists_mapM_eq_ok]

end Spec

/-- Both promises by the traversal of a list: it succeeds just if every entry does, and else one
entry has failed. -/
theorem inOrder_spec : (inOrder : Gather ε β).Spec where
  values bs := by
    rw [inOrder, mapM_eq_ok_iff, List.forall₂_map_left_iff]
    exact List.forall₂_same.2 fun b _ => rfl
  failure results := by
    rintro ⟨e, he⟩
    cases hgather : inOrder results with
    | error e' =>
      obtain ⟨_, hmem, rfl⟩ := exists_of_mapM_eq_error hgather
      exact ⟨e', rfl, hmem⟩
    | ok bs =>
      obtain ⟨b, hb⟩ := exists_mapM_eq_ok.1 ⟨bs, hgather⟩ _ he
      cases hb

end TWay.Gather

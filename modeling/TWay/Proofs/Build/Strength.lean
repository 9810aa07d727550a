import TWay.Proofs.Assembled
import TWay.Proofs.Build.Step
import TWay.Proofs.Coverage.Targets

/-!
# The strengths of a draft

A strength that a step gives is well formed over the parameters declared so far
(`Step.defaultStrength_wellFormed`, `Step.namedStrength_wellFormed`): its parameters ascend, none of
them is computed, and there are at least as many as are to be combined. When more parameters are
declared it stays so and asks for the same targets (`Strength.WellFormed.targets_stay`).
-/

namespace TWay

/-- The parameters ascend, are there and are not computed, and they are at least as many as are to
be combined. -/
structure Strength.WellFormed (params : Params) (s : Strength) : Prop where
  ascending : s.pids.Pairwise (· < ·)
  static : ∀ pid ∈ s.pids, ∃ p, params[pid]? = some p ∧ p.isAuto = false
  degree_le : s.degree ≤ s.pids.length

namespace Strength.WellFormed

variable {params params' : Params} {s : Strength}

theorem mono (hle : params <+: params') (h : s.WellFormed params) : s.WellFormed params' where
  ascending := h.ascending
  static pid hpid := by
    obtain ⟨p, hp, hstatic⟩ := h.static pid hpid
    exact ⟨p, getElem?_mono hle hp, hstatic⟩
  degree_le := h.degree_le

theorem nodup (h : s.WellFormed params) : s.pids.Nodup := h.ascending.imp Nat.ne_of_lt

theorem lt_length (h : s.WellFormed params) : ∀ pid ∈ s.pids, pid < params.length := by
  intro pid hpid
  obtain ⟨p, hp, -⟩ := h.static pid hpid
  exact (List.getElem?_eq_some_iff.1 hp).1

/-- The targets are those of the parameters that were there, however many follow. -/
theorem targets_stay (hle : params <+: params') (h : s.WellFormed params) :
    ∃ targets, s.targets params = .ok targets ∧ s.targets params' = .ok targets := by
  have hcount : ∀ pid ∈ s.pids, params'.valueCount pid = params.valueCount pid := by
    intro pid hpid
    obtain ⟨p, hp, -⟩ := h.static pid hpid
    rw [Params.valueCount_of_getElem? hp, Params.valueCount_of_getElem? (getElem?_mono hle hp)]
  have hchoices : ∀ pids ∈ s.subsets, choicesOver pids (pids.map params'.valueCount) =
      choicesOver pids (pids.map params.valueCount) := by
    intro pids hpids
    rw [List.map_congr_left fun pid hpid => hcount pid (mem_of_mem_subset hpids hpid)]
  refine ⟨_, targets_eq h.lt_length, ?_⟩
  rw [targets_eq (h.mono hle).lt_length, List.flatMap_def, List.flatMap_def,
    List.map_congr_left hchoices]

end Strength.WellFormed

/-! ## Recording -/

namespace Draft

variable {d : Draft} {pid : ParamId}

theorem eligible_ascending (d : Draft) : d.eligible.Pairwise (· < ·) :=
  List.pairwise_lt_range.filter _

theorem static_of_eligible (h : pid ∈ d.eligible) :
    ∃ p, d.params[pid]? = some p ∧ p.isAuto = false := by
  obtain ⟨p, hp, -, hstatic⟩ := mem_eligible.1 h
  exact ⟨p, hp, hstatic⟩

theorem static_of_named {name : String} {pids : List ParamId}
    (h : (d.named name).result = .ok pids) (hpid : pid ∈ pids) :
    ∃ p, d.params[pid]? = some p ∧ p.isAuto = false := by
  rcases named_eq_ok.1 h with ⟨-, rfl⟩ | ⟨-, pid', p, -, hp, hstatic, rfl⟩
  · exact static_of_eligible hpid
  · cases List.mem_singleton.1 hpid
    exact ⟨p, hp, hstatic⟩

end Draft

namespace Step

variable {d d' : Draft} {degree : Nat} {s : Strength}

theorem addStrength_wellFormed {pids : List ParamId} (hascending : pids.Pairwise (· < ·))
    (hstatic : ∀ pid ∈ pids, ∃ p, d.params[pid]? = some p ∧ p.isAuto = false)
    (h : (addStrength pids degree).Gives d s d') : s.WellFormed d.params := by
  obtain ⟨hle, rfl, -⟩ := addStrength_gives.1 h
  exact ⟨hascending, hstatic, hle⟩

theorem defaultStrength_wellFormed (h : (defaultStrength degree).Gives d s d') :
    s.WellFormed d.params :=
  addStrength_wellFormed d.eligible_ascending (fun _ => Draft.static_of_eligible)
    (defaultStrength_gives.1 h)

/-- The names may repeat and overlap, in any order. -/
theorem namedStrength_wellFormed {names : List String}
    (h : (namedStrength names degree).Gives d s d') : s.WellFormed d.params := by
  obtain ⟨pids, hpids, hadd⟩ := namedStrength_gives.1 h
  refine addStrength_wellFormed (List.pairwise_lt_range.filter _) (fun pid hpid => ?_) hadd
  have hnamed : pid ∈ pids.flatten := by simpa using (List.mem_filter.1 hpid).2
  obtain ⟨group, hgroup, hmem⟩ := List.mem_flatten.1 hnamed
  obtain ⟨name, -, hname⟩ := Attempt.exists_of_mapM_eq_ok hpids hgroup
  exact Draft.static_of_named hname hmem

end Step

end TWay

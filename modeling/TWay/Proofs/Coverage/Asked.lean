import TWay.Proofs.Coverage.Enumeration
import TWay.Proofs.Coverage.Targets

/-!
# What a strength asks for

A strength asks for values at some places of its list of parameters: for all ascending lists of as
many places as its degree says, and for all values of the parameters there (`Strength.AsksFor`). The
targets are these combinations, each of them once, ordered by the places and for the same places by
the values (`targets_enumerate`). The only thing that can be wrong with a strength is a parameter
that is to be combined and is not there.
-/

namespace TWay

variable {params : Params} {s : Strength} {places : List Nat} {vids : List ValueId}

namespace Strength

/-- One of the values of the parameter at a place. -/
def IsValueAt (params : Params) (s : Strength) (vid : ValueId) (place : Nat) : Prop :=
  ∃ pid p, s.pids[place]? = some pid ∧ params[pid]? = some p ∧ vid < p.values.length

/-- As many places as the degree says, in ascending order, and a value at each of them. -/
structure AsksFor (params : Params) (s : Strength) (places : List Nat) (vids : List ValueId) :
    Prop where
  length : places.length = s.degree
  ascending : places.Pairwise (· < ·)
  values : List.Forall₂ (s.IsValueAt params) vids places

/-- The choice of values for the parameters at some places. -/
def target (s : Strength) (places : List Nat) (vids : List ValueId) : List Choice :=
  List.zipWith Choice.mk (places.filterMap fun i => s.pids[i]?) vids

/-- Some parameter that is to be combined is not there. -/
def AsksUnknown (params : Params) (s : Strength) : Prop :=
  1 ≤ s.degree ∧ s.degree ≤ s.pids.length ∧ ∃ pid ∈ s.pids, params.length ≤ pid

/-! ## Parameters that are not there -/

/-- With a degree in range, each parameter is in one of the subsets. -/
theorem asksUnknown_iff :
    s.AsksUnknown params ↔ ∃ pids ∈ s.subsets, ∃ pid ∈ pids, params.length ≤ pid := by
  rw [subsets_eq]
  constructor
  · rintro ⟨hpos, hle, pid, hpid, hbeyond⟩
    obtain ⟨pids, hpids, hmem⟩ := exists_selection_of_mem hpid hpos hle
    exact ⟨pids, hpids, pid, hmem, hbeyond⟩
  · rintro ⟨pids, hpids, pid, hpid, hbeyond⟩
    obtain ⟨hsub, hlen⟩ := mem_selections.1 hpids
    have hpos : 0 < pids.length := List.length_pos_of_mem hpid
    have hle : pids.length ≤ s.pids.length := hsub.length_le
    exact ⟨by omega, by omega, pid, hsub.mem hpid, hbeyond⟩

theorem not_asksUnknown {targets : List (List Choice)} (ht : s.targets params = .ok targets) :
    ¬ s.AsksUnknown params := by
  intro hunknown
  obtain ⟨pids, hpids, pid, hpid, hbeyond⟩ := asksUnknown_iff.1 hunknown
  exact Nat.not_lt.2 hbeyond (lt_length_of_targets ht pids hpids pid hpid)

theorem targets_of_asksUnknown (h : s.AsksUnknown params) :
    ∃ pid ∈ s.pids, params.length ≤ pid ∧
      s.targets params = .error (.unknownParam pid params.length) := by
  cases ht : s.targets params with
  | ok targets => exact absurd h (not_asksUnknown ht)
  | error e =>
    obtain ⟨pids, hpids, pid, hpid, hbeyond, rfl⟩ := targets_eq_error ht
    exact ⟨pid, mem_of_mem_subset hpids hpid, hbeyond, rfl⟩

/-! ## In order -/

/-- The number of values at a place; none beyond the list. -/
def valueCountAt (params : Params) (s : Strength) (place : Nat) : Nat :=
  (s.pids[place]?).elim 0 params.valueCount

theorem isValueAt_iff {vid : ValueId} {place : Nat} :
    s.IsValueAt params vid place ↔ vid < s.valueCountAt params place := by
  cases hpid : s.pids[place]? <;>
    simp [IsValueAt, valueCountAt, hpid, Params.lt_valueCount_iff]

/-- All that is asked for, by the places and then by the values. -/
def asked (params : Params) (s : Strength) : List (List Nat × List ValueId) :=
  (combinations s.pids.length s.degree).flatMap fun places =>
    (picks (fun place => List.range (s.valueCountAt params place)) places).map (places, ·)

theorem IsValueAt.lt_length {vid : ValueId} {place : Nat} (h : s.IsValueAt params vid place) :
    place < s.pids.length := by
  obtain ⟨pid, p, hpid, -⟩ := h
  exact (List.getElem?_eq_some_iff.1 hpid).1

theorem AsksFor.lt_length (h : s.AsksFor params places vids) :
    ∀ place ∈ places, place < s.pids.length :=
  forall_of_forall₂ (h.values.imp fun _ _ => IsValueAt.lt_length)

theorem mem_asked : (places, vids) ∈ s.asked params ↔ s.AsksFor params places vids := by
  have hvalues : vids ∈ picks (fun place => List.range (s.valueCountAt params place)) places ↔
      List.Forall₂ (s.IsValueAt params) vids places := by
    simp only [mem_picks, List.mem_range, ← isValueAt_iff]
  simp only [asked, List.mem_flatMap, List.mem_map, Prod.mk.injEq]
  constructor
  · rintro ⟨places, hplaces, vids, hvids, rfl, rfl⟩
    obtain ⟨hlen, hascending, -⟩ := mem_combinations.1 hplaces
    exact ⟨hlen, hascending, hvalues.1 hvids⟩
  · intro h
    have hplaces := mem_combinations.2 ⟨h.length, h.ascending, h.lt_length⟩
    exact ⟨places, hplaces, vids, hvalues.2 h.values, rfl, rfl⟩

theorem asked_ascending (params : Params) (s : Strength) :
    (s.asked params).Pairwise (Prod.Lex (List.Lex (· < ·)) (List.Lex (· < ·))) := by
  rw [asked, List.pairwise_flatMap]
  constructor
  · intro places _
    have hvids := picks_pairwise (r := (· < ·))
      fun place (_ : place ∈ places) => List.pairwise_lt_range (n := s.valueCountAt params place)
    exact hvids.map _ fun _ _ hlex => .right places hlex
  · rw [combinations_eq]
    apply (selections_ascending List.pairwise_lt_range).imp
    intro places places' hlex a ha b hb
    obtain ⟨vids, -, rfl⟩ := List.mem_map.1 ha
    obtain ⟨vids', -, rfl⟩ := List.mem_map.1 hb
    exact .left vids vids' hlex

/-! ## Targets -/

theorem target_cons {pid : ParamId} {place : Nat} (hpid : s.pids[place]? = some pid)
    (vid : ValueId) :
    s.target (place :: places) (vid :: vids) = ⟨pid, vid⟩ :: s.target places vids := by
  rw [target, List.filterMap_cons_some hpid, List.zipWith_cons_cons, target]

/-- What is picked at some places makes all choices for the parameters there. -/
theorem map_target_picks (h : ∀ place ∈ places, place < s.pids.length) :
    (picks (fun place => List.range (s.valueCountAt params place)) places).map (s.target places) =
      picks (choicesFor params.valueCount) (places.filterMap fun i => s.pids[i]?) := by
  induction places with
  | nil => rfl
  | cons place places ih =>
    obtain ⟨hplace, hplaces⟩ := List.forall_mem_cons.1 h
    have hpid : s.pids[place]? = some s.pids[place] := List.getElem?_eq_getElem hplace
    have hcount : s.valueCountAt params place = params.valueCount s.pids[place] := by
      rw [valueCountAt, hpid, Option.elim_some]
    rw [List.filterMap_cons_some hpid, picks, picks, ← ih hplaces, choicesFor, List.flatMap_map,
      List.map_flatMap, hcount]
    simp only [List.map_map, Function.comp_def, target_cons hpid]

theorem flatMap_subsets (params : Params) (s : Strength) :
    s.subsets.flatMap (picks (choicesFor params.valueCount)) =
      (s.asked params).map fun a => s.target a.1 a.2 := by
  rw [subsets, asked, List.flatMap_map, List.map_flatMap]
  refine List.flatMap_congr fun places hplaces => ?_
  rw [← map_target_picks (mem_combinations.1 hplaces).2.2, List.map_map]
  rfl

theorem targets_eq_asked (h : ¬ s.AsksUnknown params) :
    s.targets params = .ok ((s.asked params).map fun a => s.target a.1 a.2) := by
  refine targets_eq_ok_iff.2 ⟨fun pids hpids pid hpid => ?_, (flatMap_subsets params s).symm⟩
  by_contra hge
  exact h (asksUnknown_iff.2 ⟨pids, hpids, pid, hpid, Nat.le_of_not_lt hge⟩)

theorem mem_targets_iff {targets : List (List Choice)} (ht : s.targets params = .ok targets)
    {target : List Choice} :
    target ∈ targets ↔
      ∃ places vids, s.AsksFor params places vids ∧ s.target places vids = target := by
  rw [targets_eq_asked (not_asksUnknown ht), Except.ok.injEq] at ht
  rw [← ht, List.mem_map]
  constructor
  · rintro ⟨a, ha, rfl⟩
    exact ⟨a.1, a.2, mem_asked.1 ha, rfl⟩
  · rintro ⟨places, vids, hasked, rfl⟩
    exact ⟨(places, vids), mem_asked.2 hasked, rfl⟩

/-- There are as many targets as the numbers of values give when they are multiplied for each
subset. -/
theorem length_targets {targets : List (List Choice)} (ht : s.targets params = .ok targets) :
    targets.length =
      ((s.subsets.filter fun pids => pids.all params.hasValues).map fun pids =>
        (pids.map params.valueCount).prod).sum := by
  rw [(targets_eq_ok_iff.1 ht).2, ← flatMap_picks_filter, List.length_flatMap]
  simp only [length_picks, length_choicesFor, ← Params.hasValues_eq]

theorem targets_nodup (h : s.pids.Nodup) {targets : List (List Choice)}
    (ht : s.targets params = .ok targets) : targets.Nodup := by
  have hpid {pids : List ParamId} {target : List Choice}
      (htarget : target ∈ picks (choicesFor params.valueCount) pids) :
      target.map Choice.pid = pids :=
    (mem_choicesOver.1 (choicesOver_eq_picks params.valueCount pids ▸ htarget)).1
  rw [(targets_eq_ok_iff.1 ht).2, List.nodup_flatMap, subsets_eq]
  constructor
  · intro pids _
    have hchoices : ∀ pid ∈ pids, (choicesFor params.valueCount pid).Pairwise (· ≠ ·) := by
      intro pid _
      exact List.nodup_range.map fun _ _ heq => congrArg Choice.vid heq
    exact (picks_pairwise hchoices).imp List.Lex.to_ne
  · apply (selections_ascending h).imp
    intro pids pids' hlex target htarget htarget'
    exact hlex.to_ne ((hpid htarget).symm.trans (hpid htarget'))

end Strength

/-- The targets of a strength are the value combinations that it asks for. It is refused just if the
degree is in range and one of its parameters is not there, and then for such a parameter. Otherwise
there is an enumeration of what is asked for, in which every choice of as many places as the degree
says and of values there comes once, in lexicographic order of the places and then of the values,
and the targets are its entries in this order. For each subset of parameters that all have values
there are as many as the product of the numbers of values, and none comes twice if no parameter
does. -/
theorem targets_enumerate (params : Params) (s : Strength) :
    (s.AsksUnknown params ∧ ∃ pid ∈ s.pids, params.length ≤ pid ∧
      s.targets params = .error (.unknownParam pid params.length)) ∨
    (¬ s.AsksUnknown params ∧ ∃ targets, s.targets params = .ok targets ∧
      (∃ asked : List (List Nat × List ValueId),
        asked.Pairwise (Prod.Lex (List.Lex (· < ·)) (List.Lex (· < ·))) ∧
        (∀ places vids, (places, vids) ∈ asked ↔ s.AsksFor params places vids) ∧
        targets = asked.map fun a => s.target a.1 a.2) ∧
      targets.length =
        ((s.subsets.filter fun pids => pids.all params.hasValues).map fun pids =>
          (pids.map params.valueCount).prod).sum ∧
      (s.pids.Nodup → targets.Nodup)) := by
  by_cases hunknown : s.AsksUnknown params
  · exact .inl ⟨hunknown, Strength.targets_of_asksUnknown hunknown⟩
  · have ht := Strength.targets_eq_asked hunknown
    exact .inr ⟨hunknown, _, ht, ⟨_, s.asked_ascending params, fun _ _ => Strength.mem_asked, rfl⟩,
      Strength.length_targets ht, fun hnodup => Strength.targets_nodup hnodup ht⟩

/-- The parameter in the middle has no values, and the subsets with it ask for nothing. -/
example :
    Strength.targets [.boolean "a", .boolean "b", ⟨"c", .int, .values [], false⟩] ⟨[0, 2, 1], 2⟩ =
      .ok [[⟨0, 0⟩, ⟨1, 0⟩], [⟨0, 0⟩, ⟨1, 1⟩], [⟨0, 1⟩, ⟨1, 0⟩], [⟨0, 1⟩, ⟨1, 1⟩]] := by
  cbv

end TWay

import TWay.Coverage.Targets
import TWay.Proofs.Coverage.Counter
import TWay.Proofs.Coverage.Picks
import TWay.Proofs.Except

/-!
# Which targets there are

The enumerations of selections and of choices, told by what is in them. Over parameters that are all
there, the targets of a strength are the lists of as many choices as its degree says, for some of
its parameters in their order, each within the values of its parameter (`Strength.mem_targets`). So
the tests cover a strength when each such list is realized by one of them
(`Strength.uncovered_eq_nil`).
-/

namespace TWay

/-! ## Choices -/

theorem choicesOver_of_start {pids : List ParamId} {sizes : List Nat} {start : Counter}
    (h : sizes.mapM Digit.first? = some start) :
    choicesOver pids sizes =
      ((Counter.readings start).map Counter.values).map (List.zipWith Choice.mk pids) := by
  rw [choicesOver, h, List.map_map]
  rfl

theorem choicesOver_eq_nil {pids : List ParamId} {sizes : List Nat}
    (h : sizes.mapM Digit.first? = none) : choicesOver pids sizes = [] := by
  rw [choicesOver, h]

theorem choicesOver_nil : choicesOver [] [] = [[]] := by
  rw [choicesOver_of_start rfl, Counter.readings_eq]
  rfl

/-- The counter runs through the choices for the other parameters once for each value of the
first. -/
theorem choicesOver_cons (pid : ParamId) (pids : List ParamId) (size : Nat) (sizes : List Nat) :
    choicesOver (pid :: pids) (size :: sizes) =
      (List.range size).flatMap fun vid => (choicesOver pids sizes).map (⟨pid, vid⟩ :: ·) := by
  by_cases hsize : 0 < size
  · have hfirst : Digit.first? size = some ⟨size, 0, hsize⟩ := dif_pos hsize
    cases hstart : sizes.mapM Digit.first? with
    | none =>
      rw [choicesOver_eq_nil (by rw [List.mapM_cons, hfirst, hstart]; rfl),
        choicesOver_eq_nil hstart]
      simp
    | some start =>
      rw [choicesOver_of_start (by rw [List.mapM_cons, hfirst, hstart]; rfl),
        choicesOver_of_start hstart,
        Counter.values_readings_cons (Counter.map_reset_of_start hstart), List.range_eq_range']
      simp only [List.map_flatMap, List.map_map, Nat.sub_zero]
      rfl
  · obtain rfl : size = 0 := by omega
    rw [choicesOver_eq_nil rfl]
    rfl

/-- The choices for a parameter, given how many values each has. -/
def choicesFor (size : ParamId → Nat) (pid : ParamId) : List Choice :=
  (List.range (size pid)).map (Choice.mk pid)

theorem mem_choicesFor {size : ParamId → Nat} {pid : ParamId} {c : Choice} :
    c ∈ choicesFor size pid ↔ c.vid < size c.pid ∧ c.pid = pid := by
  simp only [choicesFor, List.mem_map, List.mem_range]
  constructor
  · rintro ⟨vid, hvid, rfl⟩
    exact ⟨hvid, rfl⟩
  · rintro ⟨hvid, rfl⟩
    exact ⟨c.vid, hvid, rfl⟩

theorem length_choicesFor (size : ParamId → Nat) (pid : ParamId) :
    (choicesFor size pid).length = size pid := by
  rw [choicesFor, List.length_map, List.length_range]

theorem choicesOver_eq_picks (size : ParamId → Nat) (pids : List ParamId) :
    choicesOver pids (pids.map size) = picks (choicesFor size) pids := by
  induction pids with
  | nil => exact choicesOver_nil
  | cons pid pids ih =>
    rw [List.map_cons, choicesOver_cons, ih, picks, choicesFor, List.flatMap_map]

/-- One choice for each of the parameters, in their order, and within their values. -/
theorem mem_choicesOver {size : ParamId → Nat} {pids : List ParamId} {target : List Choice} :
    target ∈ choicesOver pids (pids.map size) ↔
      target.map Choice.pid = pids ∧ ∀ c ∈ target, c.vid < size c.pid := by
  simp only [choicesOver_eq_picks, mem_picks, mem_choicesFor]
  rw [List.forall₂_and_left, ← List.forall₂_map_left_iff (f := Choice.pid) (R := (· = ·)),
    List.forall₂_eq_eq_eq, and_comm]

/-! ## Targets -/

namespace Params

variable {params : Params} {pid : ParamId} {pids : List ParamId}

/-- How many values there are to choose from; none for a parameter that is not there. -/
def valueCount (params : Params) (pid : ParamId) : Nat :=
  (params[pid]?).elim 0 fun p => p.values.length

theorem valueCount_of_getElem? {p : Param} (h : params[pid]? = some p) :
    params.valueCount pid = p.values.length := by
  simp [valueCount, h]

theorem lt_valueCount_iff {vid : ValueId} :
    vid < params.valueCount pid ↔ ∃ p, params[pid]? = some p ∧ vid < p.values.length := by
  cases hp : params[pid]? <;> simp [valueCount, hp]

/-- Whether a parameter is there and has values to choose from. -/
def hasValues (params : Params) (pid : ParamId) : Bool :=
  (params[pid]?).any fun p => !p.values.isEmpty

theorem hasValues_eq (params : Params) (pid : ParamId) :
    params.hasValues pid = !(choicesFor params.valueCount pid).isEmpty := by
  rw [hasValues, choicesFor, List.isEmpty_map, valueCount]
  cases params[pid]? with
  | none => rfl
  | some p => cases hvalues : p.values <;> simp [hvalues, List.range_succ]

theorem domainSize_eq (h : pid < params.length) :
    params.domainSize pid = .ok (params.valueCount pid) := by
  simp [domainSize, valueCount, List.getElem?_eq_getElem h]

theorem domainSize_of_le (h : params.length ≤ pid) :
    params.domainSize pid = .error (.unknownParam pid params.length) := by
  rw [domainSize, List.getElem?_eq_none h]

theorem domainSize_eq_error {e : EvalError} (h : params.domainSize pid = .error e) :
    params.length ≤ pid ∧ e = .unknownParam pid params.length := by
  by_cases hpid : pid < params.length
  · rw [domainSize_eq hpid] at h
    cases h
  · have hbeyond : params.length ≤ pid := Nat.le_of_not_lt hpid
    rw [domainSize_of_le hbeyond] at h
    cases h
    exact ⟨hbeyond, rfl⟩

theorem mapM_domainSize (h : ∀ pid ∈ pids, pid < params.length) :
    pids.mapM params.domainSize = .ok (pids.map params.valueCount) :=
  mapM_eq_ok_map fun pid hpid => domainSize_eq (h pid hpid)

end Params

theorem unrealized_eq_nil {tests : List Assignment} {targets : List (List Choice)} :
    unrealized tests targets = [] ↔
      ∀ target ∈ targets, ∃ test ∈ tests, test.realizes target = true := by
  simp [unrealized]

namespace Strength

variable {params : Params} {s : Strength} {target : List Choice} {tests : List Assignment}

theorem targets_of_subsets (h : ∀ pids ∈ s.subsets, ∀ pid ∈ pids, pid < params.length) :
    s.targets params =
      .ok (s.subsets.flatMap fun pids => choicesOver pids (pids.map params.valueCount)) := by
  have hsubset : ∀ pids ∈ s.subsets,
      choicesOver pids <$> pids.mapM params.domainSize =
        .ok (choicesOver pids (pids.map params.valueCount)) := by
    intro pids hpids
    rw [Params.mapM_domainSize (h pids hpids)]
    rfl
  rw [targets, mapM_eq_ok_map hsubset, List.flatMap_def]
  rfl

theorem targets_eq (h : ∀ pid ∈ s.pids, pid < params.length) :
    s.targets params =
      .ok (s.subsets.flatMap fun pids => choicesOver pids (pids.map params.valueCount)) :=
  targets_of_subsets fun _ hpids pid hpid => h pid (mem_of_mem_subset hpids hpid)

/-- A failure is about a parameter that is not there. -/
theorem targets_eq_error {e : EvalError} (h : s.targets params = .error e) :
    ∃ pids ∈ s.subsets, ∃ pid ∈ pids,
      params.length ≤ pid ∧ e = .unknownParam pid params.length := by
  rw [targets, map_eq_error] at h
  obtain ⟨pids, hpids, hsizes⟩ := exists_of_mapM_eq_error h
  rw [map_eq_error] at hsizes
  obtain ⟨pid, hpid, hsize⟩ := exists_of_mapM_eq_error hsizes
  exact ⟨pids, hpids, pid, hpid, Params.domainSize_eq_error hsize⟩

/-- All parameters have to be there. -/
theorem lt_length_of_targets {targets : List (List Choice)} (ht : s.targets params = .ok targets) :
    ∀ pids ∈ s.subsets, ∀ pid ∈ pids, pid < params.length := by
  intro pids hpids pid hpid
  rw [Strength.targets, map_eq_ok] at ht
  obtain ⟨blocks, hblocks, -⟩ := ht
  obtain ⟨block, hblock⟩ := exists_mapM_eq_ok.1 ⟨blocks, hblocks⟩ pids hpids
  obtain ⟨sizes, hsizes, -⟩ := map_eq_ok.1 hblock
  obtain ⟨size, hsize⟩ := exists_mapM_eq_ok.1 ⟨sizes, hsizes⟩ pid hpid
  by_contra hge
  rw [Params.domainSize_of_le (Nat.le_of_not_lt hge)] at hsize
  cases hsize

theorem targets_eq_ok_iff {targets : List (List Choice)} :
    s.targets params = .ok targets ↔
      (∀ pids ∈ s.subsets, ∀ pid ∈ pids, pid < params.length) ∧
        targets = s.subsets.flatMap (picks (choicesFor params.valueCount)) := by
  simp only [← funext (choicesOver_eq_picks params.valueCount)]
  constructor
  · intro ht
    have hthere := lt_length_of_targets ht
    rw [targets_of_subsets hthere, Except.ok.injEq] at ht
    exact ⟨hthere, ht.symm⟩
  · rintro ⟨hthere, rfl⟩
    exact targets_of_subsets hthere

theorem targets_eq_picks (h : ∀ pid ∈ s.pids, pid < params.length) :
    s.targets params = .ok (s.subsets.flatMap (picks (choicesFor params.valueCount))) :=
  targets_eq_ok_iff.2 ⟨fun _ hpids pid hpid => h pid (mem_of_mem_subset hpids hpid), rfl⟩

/-- What a strength asks for is told by the parameters that a target is about, by how many they are
and by the values they have. -/
theorem mem_targets (h : ∀ pid ∈ s.pids, pid < params.length) {targets : List (List Choice)}
    (ht : s.targets params = .ok targets) :
    target ∈ targets ↔
      (target.map Choice.pid).Sublist s.pids ∧ target.length = s.degree ∧
        ∀ c ∈ target, c.vid < params.valueCount c.pid := by
  rw [targets_eq h, Except.ok.injEq] at ht
  subst ht
  simp only [subsets_eq, List.mem_flatMap, mem_selections, mem_choicesOver]
  constructor
  · rintro ⟨pids, ⟨hle, hlen⟩, rfl, hvids⟩
    exact ⟨hle, by simpa using hlen, hvids⟩
  · rintro ⟨hle, hlen, hvids⟩
    exact ⟨_, ⟨hle, by simpa using hlen⟩, rfl, hvids⟩

theorem uncovered_of_targets {targets : List (List Choice)} (ht : s.targets params = .ok targets)
    (tests : List Assignment) : s.uncovered params tests = .ok (unrealized tests targets) := by
  rw [uncovered, ht, map_ok]

/-- The tests cover a strength when each of its targets is realized by one of them. -/
theorem uncovered_eq_nil (h : ∀ pid ∈ s.pids, pid < params.length) :
    s.uncovered params tests = .ok [] ↔
      ∀ target : List Choice, (target.map Choice.pid).Sublist s.pids →
        target.length = s.degree → (∀ c ∈ target, c.vid < params.valueCount c.pid) →
          ∃ test ∈ tests, test.realizes target = true := by
  have ht := targets_eq h
  rw [uncovered_of_targets ht, Except.ok.injEq, unrealized_eq_nil]
  simp only [mem_targets h ht, and_imp]

end Strength

end TWay

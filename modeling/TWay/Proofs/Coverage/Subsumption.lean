import TWay.Proofs.Coverage.Targets

/-!
# Weaker strengths

Tests that cover a strength also cover those that combine fewer values of fewer parameters
(`coverage_subsumed`). The reason is that a choice for some of the parameters can be completed to as
many as the stronger strength asks for, as each parameter has a value to add
(`exists_completion`), and that a test which makes all choices makes each of them.
-/

namespace TWay

theorem Assignment.realizes_of_subset {a : Assignment} {xs ys : List Choice} (hsub : xs ⊆ ys)
    (h : a.realizes ys = true) : a.realizes xs = true := by
  simp only [realizes, List.all_eq_true] at h ⊢
  exact fun c hc => h c (hsub hc)

/-- Some choices for parameters among others become more of them, each with its first value. The
induction is on the parameters: one that has no choice yet is given one as soon as all of those
behind it are needed, too. -/
theorem exists_completion {size : ParamId → Nat} {pids : List ParamId} {target : List Choice}
    {t : Nat} (hsize : ∀ pid ∈ pids, 0 < size pid) (htarget : (target.map Choice.pid).Sublist pids)
    (hvids : ∀ c ∈ target, c.vid < size c.pid) (hlow : target.length ≤ t)
    (hhigh : t ≤ pids.length) :
    ∃ target' : List Choice, target.Sublist target' ∧ (target'.map Choice.pid).Sublist pids ∧
      target'.length = t ∧ ∀ c ∈ target', c.vid < size c.pid := by
  induction pids generalizing target t with
  | nil =>
    have ht : t = 0 := by simpa using hhigh
    subst ht
    exact ⟨target, List.Sublist.refl target, htarget, by omega, hvids⟩
  | cons pid pids ih =>
    obtain ⟨hpid, hpids⟩ := List.forall_mem_cons.1 hsize
    rw [List.length_cons] at hhigh
    rcases List.sublist_cons_iff.1 htarget with hskip | ⟨rest, hrest, htail⟩
    · by_cases hroom : t ≤ pids.length
      · obtain ⟨target', hle, hmap, hlen, hvids'⟩ := ih hpids hskip hvids hlow hroom
        exact ⟨target', hle, hmap.cons pid, hlen, hvids'⟩
      · have hlow' : target.length ≤ t - 1 := by
          have := hskip.length_le
          rw [List.length_map] at this
          omega
        obtain ⟨target', hle, hmap, hlen, hvids'⟩ := ih hpids hskip hvids hlow' (by omega)
        refine ⟨⟨pid, 0⟩ :: target', hle.cons _, hmap.cons_cons pid, ?_, ?_⟩
        · rw [List.length_cons]
          omega
        · exact List.forall_mem_cons.2 ⟨hpid, hvids'⟩
    · obtain ⟨c, target, rfl, rfl, rfl⟩ := List.map_eq_cons_iff.1 hrest
      obtain ⟨hc, hvids⟩ := List.forall_mem_cons.1 hvids
      rw [List.length_cons] at hlow
      obtain ⟨target', hle, hmap, hlen, hvids'⟩ :=
        ih hpids htail hvids (t := t - 1) (by omega) (by omega)
      refine ⟨c :: target', hle.cons_cons c, hmap.cons_cons c.pid, ?_, ?_⟩
      · rw [List.length_cons]
        omega
      · exact List.forall_mem_cons.2 ⟨hc, hvids'⟩

/-- Covering a strength covers the weaker ones. Where each parameter has a value, tests that cover
all combinations of `t` of them cover those of fewer, also among some of the parameters only. -/
theorem coverage_subsumed {params : Params} {tests : List Assignment} {pids pids' : List ParamId}
    {t t' : Nat} (hvalues : ∀ pid ∈ pids, ∃ p, params[pid]? = some p ∧ p.values ≠ [])
    (ht : t ≤ pids.length) (hpids : pids'.Sublist pids) (ht' : t' ≤ t)
    (hcovered : Strength.uncovered params tests ⟨pids, t⟩ = .ok []) :
    Strength.uncovered params tests ⟨pids', t'⟩ = .ok [] := by
  have hthere : ∀ pid ∈ pids, pid < params.length := by
    intro pid hpid
    obtain ⟨p, hp, -⟩ := hvalues pid hpid
    exact (List.getElem?_eq_some_iff.1 hp).1
  have hsize : ∀ pid ∈ pids, 0 < params.valueCount pid := by
    intro pid hpid
    obtain ⟨p, hp, hne⟩ := hvalues pid hpid
    rw [Params.valueCount_of_getElem? hp]
    exact List.length_pos_iff.2 hne
  rw [Strength.uncovered_eq_nil hthere] at hcovered
  rw [Strength.uncovered_eq_nil fun pid hpid => hthere pid (hpids.mem hpid)]
  intro target htarget hlen hvids
  have hlow : target.length ≤ t := hlen ▸ ht'
  obtain ⟨target', hle, htarget', hlen', hvids'⟩ :=
    exists_completion hsize (htarget.trans hpids) hvids hlow ht
  obtain ⟨test, htest, hrealizes⟩ := hcovered target' htarget' hlen' hvids'
  exact ⟨test, htest, Assignment.realizes_of_subset hle.subset hrealizes⟩

/-- Four tests for the pairs of three truth values cover each of the last two by itself. -/
theorem coverage_subsumed_pairs :
    let params : Params := [.boolean "a", .boolean "b", .boolean "c"]
    let test (x y z : ValueId) : Assignment := ⟨[some (.value x), some (.value y), some (.value z)]⟩
    let tests := [test 0 0 0, test 0 1 1, test 1 0 1, test 1 1 0]
    Strength.uncovered params tests ⟨[0, 1, 2], 2⟩ = .ok [] ∧
      Strength.uncovered params tests ⟨[1, 2], 1⟩ = .ok [] := by
  intro params test tests
  have hvalues : ∀ pid ∈ [0, 1, 2], ∃ p, params[pid]? = some p ∧ p.values ≠ [] := by
    simp [params, Param.boolean, Param.values]
  have hcovered : Strength.uncovered params tests ⟨[0, 1, 2], 2⟩ = .ok [] := by
    have hthere : ∀ pid ∈ [0, 1, 2], pid < params.length := by decide
    have hpairs : selections 2 [0, 1, 2] = [[0, 1], [0, 2], [1, 2]] := rfl
    rw [Strength.uncovered, Strength.targets_eq hthere, Strength.subsets_eq]
    simp only [hpairs, List.flatMap_cons, List.flatMap_nil, List.map, choicesOver_cons,
      choicesOver_nil]
    rfl
  have hpids : [1, 2].Sublist [0, 1, 2] := by decide
  exact ⟨hcovered, coverage_subsumed hvalues (by decide) hpids (by decide) hcovered⟩

end TWay

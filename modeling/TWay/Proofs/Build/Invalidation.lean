import TWay.Build.Model
import TWay.Proofs.Build.Attempt

/-!
# The constraints on invalid parameters

A draft that can be finished has constraints for reasons only, and gives each of its parameters the
constraint that is made from those recorded for it. One that cannot be finished still gives the
constraints of the parameters before the one it stops at.
-/

namespace TWay

/-- A list is mapped to by another one when each of its entries is by some entry. -/
theorem exists_eq_map_iff {α β : Type} {f : α → β} {ys : List β} :
    (∃ xs : List α, ys = xs.map f) ↔ ∀ y ∈ ys, ∃ x, y = f x := by
  induction ys with
  | nil => exact ⟨fun _ => by simp, fun _ => ⟨[], rfl⟩⟩
  | cons y ys ih =>
    rw [List.forall_mem_cons, ← ih]
    constructor
    · rintro ⟨xs, hxs⟩
      obtain ⟨x, rest, rfl, rfl, rfl⟩ := List.map_eq_cons_iff.1 hxs.symm
      exact ⟨⟨x, rfl⟩, rest, rfl⟩
    · rintro ⟨⟨x, rfl⟩, rest, rfl⟩
      exact ⟨x :: rest, rfl⟩

namespace Draft

variable {d : Draft} {pid : ParamId} {p : Param} {c : Constraint} {cs : List Constraint}

theorem reasonsFor_eq (d : Draft) (pid : ParamId) :
    d.reasonsFor pid =
      d.reasons.filterMap fun reason => if reason.1 = pid then some reason.2 else none := rfl

theorem mem_reasonsFor {n : Node} : n ∈ d.reasonsFor pid ↔ (pid, n) ∈ d.reasons := by
  simp only [reasonsFor, List.mem_filterMap, Prod.exists]
  constructor
  · rintro ⟨q, m, hmem, h⟩
    split at h
    · rename_i hq
      cases h
      exact hq ▸ hmem
    · cases h
  · intro hmem
    exact ⟨pid, n, hmem, if_pos rfl⟩

theorem conditions_eq_ok {name : String} {position : Nat} {reasons : List Node} :
    (conditions name position reasons).result = .ok cs ↔ reasons = cs.map .constraint := by
  induction reasons generalizing position cs with
  | nil => cases cs <;> simp [conditions]
  | cons reason reasons ih =>
    cases reason with
    | constraint c =>
      simp only [conditions, Attempt.bind_eq_ok, ih, Attempt.pure_eq_ok]
      constructor
      · rintro ⟨rest, rfl, rfl⟩
        rfl
      · intro h
        cases cs with
        | nil => cases h
        | cons c' rest =>
          cases h
          exact ⟨rest, rfl, rfl⟩
    | arith e => cases cs <;> simp [conditions]
    | string e => cases cs <;> simp [conditions]

theorem invalidation_eq_ok :
    (d.invalidation pid p).result = .ok c ↔
      ∃ cs, d.reasonsFor pid = cs.map .constraint ∧ c = invalidWhen pid cs := by
  simp only [invalidation, Attempt.map_eq_ok, conditions_eq_ok, eq_comm (a := c)]

/-! ## All parameters -/

theorem collect_eq_ok {l : List (Attempt Empty BuildError Constraint)} :
    (collect l).result = .ok cs ↔ l.map Attempt.result = cs.map .ok := by
  induction l generalizing cs with
  | nil => cases cs <;> simp [collect]
  | cons x l ih =>
    simp only [collect, Attempt.bind_eq_ok, Attempt.result_mapError, mapError_eq_ok, ih,
      Attempt.pure_eq_ok, List.map_cons]
    constructor
    · rintro ⟨c, hx, rest, hrest, rfl⟩
      rw [hx, hrest, List.map_cons]
    · intro h
      obtain ⟨c, rest, rfl, hc, hrest⟩ := List.map_eq_cons_iff.1 h.symm
      exact ⟨c, hc.symm, rest, hrest.symm, rfl⟩

theorem exists_collect_eq_ok {l : List (Attempt Empty BuildError Constraint)} :
    (∃ cs, (collect l).result = .ok cs) ↔ ∀ x ∈ l, ∃ c, x.result = .ok c := by
  simp only [collect_eq_ok, exists_eq_map_iff, List.forall_mem_map]

/-- What is there when a collection stops. -/
theorem collect_eq_error {l : List (Attempt Empty BuildError Constraint)} {h : Halted}
    (hl : (collect l).result = .error h) :
    ∃ rest, l.map Attempt.result = h.built.map .ok ++ .error h.cause :: rest := by
  induction l generalizing h with
  | nil => cases hl
  | cons x l ih =>
    rw [collect, Attempt.result_bind, Attempt.result_mapError] at hl
    cases hx : x.result with
    | error e =>
      rw [hx] at hl
      cases hl
      exact ⟨l.map Attempt.result, by rw [List.map_cons, hx]; rfl⟩
    | ok c =>
      rw [hx, mapError_ok, ok_bind, Attempt.result_bind, Attempt.result_mapError] at hl
      cases hrest : (collect l).result with
      | ok cs =>
        rw [hrest] at hl
        cases hl
      | error h' =>
        rw [hrest] at hl
        cases hl
        obtain ⟨rest, hl⟩ := ih hrest
        exact ⟨rest, by rw [List.map_cons, hx, hl]; rfl⟩

theorem invalidations_eq (d : Draft) :
    (d.invalidations : Attempt Empty _ _) = collect (d.params.zipIdx.map fun x => d.invalidation x.2 x.1) := rfl

/-- These constraints are built, whether they are all of them or those before a failure. -/
def Builds (d : Draft) (built : List Constraint) : Prop :=
  d.invalidations.result = .ok built ∨ ∃ cause, d.invalidations.result = .error ⟨cause, built⟩

/-- Each constraint that is built is that of a parameter. -/
theorem mem_built {built : List Constraint} (h : d.Builds built) (hc : c ∈ built) :
    ∃ pid p, d.params[pid]? = some p ∧ (d.invalidation pid p).result = .ok c := by
  unfold Builds at h
  rw [invalidations_eq] at h
  have hmem : .ok c ∈
      (d.params.zipIdx.map fun x => d.invalidation x.2 x.1).map Attempt.result := by
    rcases h with h | ⟨e, h⟩
    · rw [collect_eq_ok.1 h]
      exact List.mem_map_of_mem hc
    · obtain ⟨rest, hrest⟩ := collect_eq_error h
      rw [hrest]
      exact List.mem_append_left _ (List.mem_map_of_mem hc)
  rw [List.map_map] at hmem
  obtain ⟨⟨p, pid⟩, hp, hbuilt⟩ := List.mem_map.1 hmem
  exact ⟨pid, p, List.mem_zipIdx_iff_getElem?.1 hp, hbuilt⟩

section

variable {Q : Constraint → Prop} (hnot : ∀ c, Q c → Q (.not c))
  (hlogic : ∀ op lhs rhs, Q lhs → Q rhs → Q (.logic op lhs rhs))
include hlogic

theorem chain_holds (hc : Q c) (hcs : ∀ c ∈ cs, Q c) : Q (cs.foldl (.logic .or) c) := by
  induction cs generalizing c with
  | nil => exact hc
  | cons c' cs ih =>
    rw [List.forall_mem_cons] at hcs
    exact ih (hlogic .or c c' hc hcs.1) hcs.2

include hnot

theorem invalidWhen_holds (hmarker : Q (.invalid pid)) (hcs : ∀ c ∈ cs, Q c) :
    Q (invalidWhen pid cs) := by
  cases cs with
  | nil => exact hnot _ hmarker
  | cons c cs =>
    rw [List.forall_mem_cons] at hcs
    exact hlogic .iff _ _ (chain_holds hlogic hcs.1 hcs.2) hmarker

/-- What is true of the reasons and the markers, and kept by negation and the connectives, is true
of the constraints that are built. -/
theorem built_holds {built : List Constraint}
    (hmarker : ∀ pid p, d.params[pid]? = some p → Q (.invalid pid))
    (hreasons : ∀ pid c, (pid, .constraint c) ∈ d.reasons → Q c)
    (h : d.Builds built) : ∀ c ∈ built, Q c := by
  intro c hc
  obtain ⟨pid, p, hp, hbuilt⟩ := mem_built h hc
  obtain ⟨cs, hcs, rfl⟩ := invalidation_eq_ok.1 hbuilt
  refine invalidWhen_holds hnot hlogic (hmarker pid p hp) fun c hc => hreasons pid c ?_
  rw [← mem_reasonsFor, hcs]
  exact List.mem_map_of_mem hc

end

theorem length_of_invalidations (h : d.invalidations.result = .ok cs) :
    cs.length = d.params.length := by
  rw [invalidations_eq, collect_eq_ok] at h
  simpa using (congrArg List.length h).symm

/-- The constraint for a parameter stands at the place of the parameter. -/
theorem invalidation_of_invalidations (h : d.invalidations.result = .ok cs)
    (hp : d.params[pid]? = some p) :
    ∃ c, cs[pid]? = some c ∧ (d.invalidation pid p).result = .ok c := by
  rw [invalidations_eq, collect_eq_ok, List.map_map] at h
  have hplace : (cs.map Except.ok)[pid]? = some (d.invalidation pid p).result := by
    rw [← h, List.getElem?_map, List.getElem?_zipIdx, hp, Option.map_some, Option.map_some,
      Nat.zero_add]
    rfl
  rw [List.getElem?_map] at hplace
  obtain ⟨c, hc, hbuilt⟩ := Option.map_eq_some_iff.1 hplace
  exact ⟨c, hc, hbuilt.symm⟩

theorem getElem?_of_invalidations (h : d.invalidations.result = .ok cs)
    (hp : d.params[pid]? = some p) :
    ∃ conditions, d.reasonsFor pid = conditions.map .constraint ∧
      cs[pid]? = some (invalidWhen pid conditions) := by
  obtain ⟨c, hc, hbuilt⟩ := invalidation_of_invalidations h hp
  obtain ⟨conditions, hreasons, rfl⟩ := invalidation_eq_ok.1 hbuilt
  exact ⟨conditions, hreasons, hc⟩

/-- Each parameter has its constraint. -/
theorem invalidWhen_mem (h : d.invalidations.result = .ok cs) (hp : d.params[pid]? = some p) :
    ∃ conditions, d.reasonsFor pid = conditions.map .constraint ∧
      invalidWhen pid conditions ∈ cs := by
  obtain ⟨conditions, hreasons, hplace⟩ := getElem?_of_invalidations h hp
  exact ⟨conditions, hreasons, List.mem_of_getElem? hplace⟩

/-- The constraints can be built when all that is recorded for a parameter is a condition. -/
theorem exists_invalidations_eq_ok :
    (∃ cs, d.invalidations.result = .ok cs) ↔
      ∀ pid p, d.params[pid]? = some p → ∀ n ∈ d.reasonsFor pid, ∃ c, n = .constraint c := by
  have hone (pid : ParamId) (p : Param) : (∃ c, (d.invalidation pid p).result = .ok c) ↔
      ∀ n ∈ d.reasonsFor pid, ∃ c, n = .constraint c := by
    rw [← exists_eq_map_iff]
    constructor
    · rintro ⟨c, hc⟩
      obtain ⟨conditions, hreasons, -⟩ := invalidation_eq_ok.1 hc
      exact ⟨conditions, hreasons⟩
    · rintro ⟨conditions, hreasons⟩
      exact ⟨_, invalidation_eq_ok.2 ⟨conditions, hreasons, rfl⟩⟩
  rw [invalidations_eq, exists_collect_eq_ok, List.forall_mem_map, Prod.forall]
  simp only [List.mem_zipIdx_iff_getElem?, hone]
  exact forall_comm

theorem finish_eq_ok {m : Model} :
    d.finish.result = .ok m ↔
      ∃ cs, d.invalidations.result = .ok cs ∧
        m = ⟨d.params, d.constraints, cs, d.strengths, d.seeds⟩ := by
  simp only [finish, Attempt.bind_eq_ok, Attempt.pure_eq_ok, eq_comm (a := m)]

end Draft

end TWay

import Mathlib.Data.List.Perm.Subperm
import TWay.Proofs.Eval.Congruence

/-!
# How deep resolutions nest

`Context.watched` reads computed parameters by a recursion of limited depth. It looks at the list of
what is being resolved each time that list grows, and gives up where the list repeats a parameter or
holds one that is not computed. The evaluation of a tree never makes it give up, if the depth allows
for each computed parameter once: it comes to what the tree gives, a result or a failure of the
tree's own (`evaluation_returns`). This holds of any list of parameters, also where their rules lead
back to themselves.
-/

namespace TWay

/-! ## Failures told in another way -/

namespace ExceptRel

variable {ε ε' : Type}

/-- The right side is the left one, its failures told in another way. -/
def retold (f : ε → ε') : ExceptRel ε ε' := fun _ x y => y = x.mapError f

theorem retold_sequential (f : ε → ε') : (retold f).Sequential where
  ok _ := rfl
  bind {α β x x' g g'} hx hg := by
    cases hx
    cases x with
    | error e => rfl
    | ok a => exact hg a rfl

theorem retold_tells {fail : EvalError → ε} {f : ε → ε'} :
    (retold f).Tells fail fun e => f (fail e) where
  unknown _ _ _ := rfl
  mismatch _ _ _ _ := rfl

end ExceptRel

namespace Context

variable {ctx : Context} {busy : List ParamId} {pid : ParamId}

/-! ## What is being resolved -/

/-- What is being resolved are computed parameters, none of them twice. -/
structure InOrder (ctx : Context) (busy : List ParamId) : Prop where
  nodup : busy.Nodup
  isAuto : ∀ pid ∈ busy, ctx.isAuto pid = true

instance (ctx : Context) (busy : List ParamId) : Decidable (ctx.InOrder busy) :=
  decidable_of_iff (busy.Nodup ∧ ∀ pid ∈ busy, ctx.isAuto pid = true)
    ⟨fun h => ⟨h.1, h.2⟩, fun h => ⟨h.nodup, h.isAuto⟩⟩

theorem InOrder.nil (ctx : Context) : ctx.InOrder [] where
  nodup := List.nodup_nil
  isAuto := by simp

theorem InOrder.cons (h : ctx.InOrder busy) (hauto : ctx.isAuto pid = true) (hnot : pid ∉ busy) :
    ctx.InOrder (pid :: busy) where
  nodup := List.nodup_cons.2 ⟨hnot, h.nodup⟩
  isAuto := by simpa [hauto] using h.isAuto

theorem length_unresolved_nil (ctx : Context) :
    (ctx.unresolved []).length = ctx.params.countP Param.isAuto := by
  have hmap : (List.range ctx.params.length).map (fun i => ctx.params[i]?) =
      ctx.params.map some := by
    apply List.ext_getElem?
    intro i
    by_cases hi : i < ctx.params.length
    · simp [hi]
    · simp [Nat.le_of_not_lt hi]
  have hcount := congrArg (List.countP fun p => p.any Param.isAuto) hmap
  rw [List.countP_map, List.countP_map] at hcount
  rw [unresolved, ← List.countP_eq_length_filter]
  simpa [Function.comp_def, isAuto] using hcount

/-- No more parameters are being resolved at a time than there are computed ones. -/
theorem InOrder.length_le (h : ctx.InOrder busy) :
    busy.length ≤ ctx.params.countP Param.isAuto := by
  have hsubset : busy ⊆ ctx.unresolved [] := fun pid hpid =>
    mem_unresolved.2 ⟨h.isAuto pid hpid, by simp⟩
  have hle := (List.subperm_of_subset h.nodup hsubset).length_le
  rwa [length_unresolved_nil] at hle

/-! ## Limited depth -/

/-- How the parameters read by a recursion that may resolve so many parameters inside each other,
besides those that are being resolved. `none` is the failure to keep within that depth, or to keep
what is being resolved in order. -/
def watched (ctx : Context) : Nat → List ParamId → Readings (Option EvalError)
  | 0, busy => ctx.readings some fun pid =>
    if pid ∈ busy then .error (some (.autoCycle (ctx.params.nameOf pid)))
    else .error none
  | depth + 1, busy => ctx.readings some fun pid =>
    if pid ∈ busy then .error (some (.autoCycle (ctx.params.nameOf pid)))
    else if ctx.InOrder (pid :: busy) then .ok (ctx.watched depth (pid :: busy))
    else .error none

/-- The induction is on the depth. What carries it is that the computed parameters outside the list
are no more than the depth allows, so that it is not used up while one of them is read. -/
theorem resolving_watched (ctx : Context) :
    ∀ (depth : Nat) (busy : List ParamId), ctx.InOrder busy →
      (ctx.unresolved busy).length ≤ depth →
      ∀ u, (ExceptRel.retold some).onEvaluated.At (ctx.resolving busy) (ctx.watched depth busy) u := by
  intro depth
  induction depth with
  | zero =>
    intro busy _ hle u
    rw [resolving_eq, watched]
    refine readings_congr (ExceptRel.retold_sequential some) ExceptRel.retold_tells
      (.refl ctx u.pid) ?_
    intro p hp hauto
    have hmem : u.pid ∈ busy := by
      by_contra hnot
      have hun := mem_unresolved.2 ⟨isAuto_of_getElem? hp hauto, hnot⟩
      have hpos := List.length_pos_of_mem hun
      omega
    rw [entering_of_mem hmem, if_pos hmem]
    exact .error fun _ => rfl
  | succ depth ih =>
    intro busy hbusy hle u
    rw [resolving_eq, watched]
    refine readings_congr (ExceptRel.retold_sequential some) ExceptRel.retold_tells
      (.refl ctx u.pid) ?_
    intro p hp hauto
    by_cases hmem : u.pid ∈ busy
    · rw [entering_of_mem hmem, if_pos hmem]
      exact .error fun _ => rfl
    · have hisAuto := isAuto_of_getElem? hp hauto
      have hun := mem_unresolved.2 ⟨hisAuto, hmem⟩
      have hlt := unresolved_cons_lt hun
      have hcons := hbusy.cons hisAuto hmem
      rw [entering_eq_ok.2 ⟨hun, rfl⟩, if_neg hmem, if_pos hcons]
      exact .ok fun v _ => ih (u.pid :: busy) hcons (by omega) v

/-- Every evaluation returns. With a depth that allows for each computed parameter once, the watched
recursion never gives up: it comes to what the tree gives, where a failure is one of the tree's own.
So what is being resolved always is a list of computed parameters without repetition, and such a
list is no longer than there are computed parameters. -/
theorem evaluation_returns (ctx : Context) (n : Node) :
    n.eval ctx.policy (ctx.watched (ctx.params.countP Param.isAuto) []) =
        (ctx.node n).mapError some ∧
      ∀ busy, ctx.InOrder busy → busy.length ≤ ctx.params.countP Param.isAuto := by
  refine ⟨?_, fun busy h => h.length_le⟩
  have hdepth : (ctx.unresolved []).length ≤ ctx.params.countP Param.isAuto :=
    Nat.le_of_eq (length_unresolved_nil ctx)
  have hreadings := resolving_watched ctx _ [] (InOrder.nil ctx) hdepth
  exact n.eval_congr (ExceptRel.retold_sequential some) fun u _ => hreadings u

end Context

end TWay

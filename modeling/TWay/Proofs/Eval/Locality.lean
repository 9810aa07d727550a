import TWay.Proofs.Eval.Congruence

/-!
# What an evaluation looks at

An assignment comes in only through the parameters that a tree reaches and that have a list of
values (`Context.evaluation_is_local`). What it says of a computed parameter is never looked at, and
a value beyond the list is not told from a parameter that is left invalid: both ways to ask about a
parameter, reading it and asking whether it is invalid, sort the slots in the same way. This holds
of all lists of parameters, also of those whose rules lead back to themselves, since the two sides
resolve the same parameters in the same order and so meet the same cycles.
-/

namespace TWay

variable {ε : Type}

namespace ExceptRel

/-- Both sides are the same. -/
def same : ExceptRel ε ε := fun _ x y => x = y

theorem same_sequential : (same : ExceptRel ε ε).Sequential where
  ok _ := rfl
  bind {α β x x' f f'} hx hf := by
    cases hx
    cases x with
    | error e => rfl
    | ok a => exact hf a rfl

theorem same_tells {fail : EvalError → ε} : same.Tells fail fail where
  unknown _ _ _ := rfl
  mismatch _ _ _ _ := rfl

end ExceptRel

/-- The assignments say the same of all parameters with a list of values among those that are
reached. -/
def Assignment.AlikeOn (params : Params) (a a' : Assignment) (reached : ParamId → Prop) : Prop :=
  ∀ pid p, reached pid → params[pid]? = some p → p.isAuto = false →
    a.AlikeAt a' p.values.length pid

namespace Context

variable {params : Params} {policy : Policy} {a a' : Assignment}

/-- The induction is on the number of computed parameters that are not being resolved. What carries
it is that all that is read inside a parameter is reached from it. -/
theorem resolving_local (busy : List ParamId) :
    ∀ u : Use, a.AlikeOn params a' (Relation.ReflTransGen params.DependsOn u.pid) →
      ExceptRel.same.onEvaluated.At (Context.resolving ⟨params, a, policy⟩ busy)
        (Context.resolving ⟨params, a', policy⟩ busy) u := by
  induction hn : (Context.unresolved ⟨params, a, policy⟩ busy).length using Nat.strongRecOn
    generalizing busy with
  | ind n ih =>
    intro u halike
    rw [resolving_eq, resolving_eq]
    have hpid : AlikeAt ⟨params, a, policy⟩ ⟨params, a', policy⟩ u.pid :=
      ⟨rfl, fun p => halike u.pid p .refl, fun _ _ _ => rfl⟩
    refine readings_congr ExceptRel.same_sequential ExceptRel.same_tells hpid ?_
    intro p hp hauto
    by_cases hmem : u.pid ∈ busy
    · rw [entering_of_mem hmem, entering_of_mem hmem]
      exact .error fun _ => rfl
    · have hd := Param.domain_of_auto hauto
      have hp' : (⟨params, a', policy⟩ : Context).params[u.pid]? = some p := hp
      have hun := mem_unresolved.2 ⟨isAuto_of_getElem? hp hauto, hmem⟩
      have hlt := unresolved_cons_lt hun
      rw [entering_of_not_mem hp hd hmem, entering_of_not_mem hp' hd hmem]
      refine .ok fun v hv => ih _ (hn ▸ hlt) (u.pid :: busy) rfl v fun pid q hreach => ?_
      have hdepends : params.DependsOn u.pid v.pid := ⟨p, hp, v, hv, rfl⟩
      exact halike pid q (hreach.head hdepends)

theorem node_local {n : Node} (h : a.AlikeOn params a' (n.Reaches params)) :
    Context.node ⟨params, a, policy⟩ n = Context.node ⟨params, a', policy⟩ n :=
  n.eval_congr ExceptRel.same_sequential fun u hu =>
    resolving_local [] u fun pid p hreach => h pid p ⟨u, hu, hreach⟩

/-- Evaluation is local. A tree comes to the same, a value or a failure, under assignments that say
the same of the parameters with a list of values which it reaches. So it does under assignments that
differ in the slot of a computed parameter only, and where a value beyond the list takes the place
of the slot for an invalid parameter. -/
theorem evaluation_is_local (params : Params) (policy : Policy) (n : Node) :
    (∀ a a' : Assignment, a.AlikeOn params a' (n.Reaches params) →
      Context.node ⟨params, a, policy⟩ n = Context.node ⟨params, a', policy⟩ n) ∧
    (∀ (a a' : Assignment) pid p, params[pid]? = some p → p.isAuto = true →
      (∀ q, q ≠ pid → a.get? q = a'.get? q) →
      Context.node ⟨params, a, policy⟩ n = Context.node ⟨params, a', policy⟩ n) ∧
    ∀ (a : Assignment) pid p vid, params[pid]? = some p → p.values.length ≤ vid →
      Context.node ⟨params, a.set pid (.value vid), policy⟩ n =
        Context.node ⟨params, a.set pid .invalid, policy⟩ n := by
  refine ⟨fun a a' h => node_local h, ?_, ?_⟩
  · intro a a' pid p hp hauto hothers
    refine node_local fun q p' _ hp' hstatic => .inl (hothers q ?_)
    rintro rfl
    rw [hp] at hp'
    cases hp'
    rw [hauto] at hstatic
    cases hstatic
  · intro a pid p vid hp hle
    refine node_local fun q p' _ hp' _ => ?_
    by_cases hq : q = pid
    · subst hq
      rw [hp] at hp'
      cases hp'
      refine .inr ⟨.value vid, .invalid, ?_, ?_, hle, trivial⟩
      · rw [Assignment.get?_set, if_pos rfl]
      · rw [Assignment.get?_set, if_pos rfl]
    · refine .inl ?_
      rw [Assignment.get?_set, Assignment.get?_set, if_neg hq, if_neg hq]

/-- A computed parameter that asks whether another one is invalid. The assignments differ in how
they leave that one invalid, in the slot of the computed one, and in one that is not reached. -/
theorem evaluation_is_local_invalid :
    let params : Params :=
      [⟨"a", .int, .values [⟨"1", .int 1⟩], false⟩,
        ⟨"b", .int, .auto [⟨.invalid 0, .arith (.int 7 "7")⟩], false⟩, .boolean "c"]
    let n : Node := .arith (.param 1 .int)
    let a : Assignment := ⟨[some (.value 1), none, some (.value 0)]⟩
    let a' : Assignment := ⟨[some .invalid, some (.value 3), none]⟩
    a.AlikeOn params a' (n.Reaches params) ∧
      Context.node ⟨params, a, .deciding⟩ n = .ok (.num (.valid (.int 7))) ∧
      Context.node ⟨params, a', .deciding⟩ n = .ok (.num (.valid (.int 7))) ∧
      Context.node ⟨params, a.set 1 .invalid, .deciding⟩ n = .ok (.num (.valid (.int 7))) ∧
      Context.node ⟨params, a.set 0 (.value 1), .deciding⟩ n =
        Context.node ⟨params, a.set 0 .invalid, .deciding⟩ n := by
  intro params n a a'
  have hdown : ∀ q r, params.DependsOn q r → r = 0 := by
    rintro q r ⟨p, hp, u, hu, rfl⟩
    rcases q with _ | _ | _ | q
    · cases hp
      cases hu
    · cases hp
      cases List.mem_singleton.1 hu
      rfl
    · cases hp
      cases hu
    · cases hp
  have halike : a.AlikeOn params a' (n.Reaches params) := by
    rintro pid p ⟨u, hu, hreach⟩ hp hstatic
    cases List.mem_singleton.1 hu
    rcases Relation.ReflTransGen.cases_tail hreach with h | ⟨q, -, hlast⟩
    · subst h
      cases hp
      cases hstatic
    · cases hdown _ _ hlast
      cases hp
      exact .inr ⟨.value 1, .invalid, rfl, rfl, Nat.le_refl 1, trivial⟩
  have hvalue : Context.node ⟨params, a, .deciding⟩ n = .ok (.num (.valid (.int 7))) := by
    rw [node_number, read_auto rfl rfl, entering_of_not_mem rfl rfl (by simp), ok_bind,
      resolving_eq]
    rfl
  have hset : ∀ q, q ≠ 1 → a.get? q = (a.set 1 .invalid).get? q := fun q hq => by
    rw [Assignment.get?_set, if_neg hq]
  obtain ⟨hreached, hcomputed, hbeyond⟩ := evaluation_is_local params .deciding n
  refine ⟨halike, hvalue, ?_, ?_, hbeyond a 0 _ 1 rfl (Nat.le_refl 1)⟩
  · exact (hreached a a' halike).symm.trans hvalue
  · exact (hcomputed a (a.set 1 .invalid) 1 _ rfl rfl hset).symm.trans hvalue

end Context

end TWay

import TWay.Proofs.Eval.Congruence

/-!
# What is reported as a cycle

The failure over a computed parameter that depends on itself is never a false alarm: it names a
computed parameter that the tree reaches and that reaches itself (`cycle_is_genuine`). The reason is
that what is being resolved is a path: each parameter on it leads to all that is read inside it. So
one that is read while it is being resolved leads to itself, and one that is only read several times
is never found there. The path is handed down here; `Context.track_node` carries the statement to a
list that is pushed and popped.
-/

namespace TWay

/-- The left side fails over a cycle only for a name that is to blame. -/
def ExceptRel.blames (blamed : String → Prop) : ExceptRel EvalError EvalError :=
  fun _ x _ => ∀ name, x = .error (.autoCycle name) → blamed name

namespace ExceptRel

theorem blames_sequential (blamed : String → Prop) : (blames blamed).Sequential where
  ok _ name h := by cases h
  bind {α β x x' f f'} hx hf name h := by
    cases x with
    | error e =>
      cases h
      exact hx name rfl
    | ok a => exact hf a rfl name h

theorem blames_tells (blamed : String → Prop) : (blames blamed).Tells id id where
  unknown _ _ _ name h := by cases h
  mismatch _ _ _ _ name h := by cases h

end ExceptRel

/-- A computed parameter of this name, which the first one reaches, depends on itself. -/
def Params.LeadsToCycle (params : Params) (pid : ParamId) (name : String) : Prop :=
  ∃ q p, params[q]? = some p ∧ p.isAuto = true ∧ p.name = name ∧
    Relation.ReflTransGen params.DependsOn pid q ∧ Relation.TransGen params.DependsOn q q

theorem Params.LeadsToCycle.head {params : Params} {pid other : ParamId} {name : String}
    (h : params.LeadsToCycle other name) (hdepends : params.DependsOn pid other) :
    params.LeadsToCycle pid name := by
  obtain ⟨q, p, hp, hauto, hname, hreach, hcycle⟩ := h
  exact ⟨q, p, hp, hauto, hname, hreach.head hdepends, hcycle⟩

namespace Context

/-- The induction is on the number of computed parameters that are not being resolved. What carries
it is that those which are being resolved lead to the one that is read. -/
theorem resolving_blames (ctx : Context) (busy : List ParamId) :
    ∀ (u : Use) (blamed : String → Prop),
      (∀ b ∈ busy, Relation.TransGen ctx.params.DependsOn b u.pid) →
      (∀ name, ctx.params.LeadsToCycle u.pid name → blamed name) →
      (ExceptRel.blames blamed).onEvaluated.At (ctx.resolving busy) (ctx.resolving busy) u := by
  induction hn : (ctx.unresolved busy).length using Nat.strongRecOn generalizing busy with
  | ind n ih =>
    intro u blamed hpath hblamed
    rw [resolving_eq]
    refine readings_congr (ExceptRel.blames_sequential blamed) (ExceptRel.blames_tells blamed)
      (.refl ctx u.pid) ?_
    intro p hp hauto
    by_cases hmem : u.pid ∈ busy
    · have hcycle := hpath u.pid hmem
      have hname : ctx.params.nameOf u.pid = p.name := by rw [Params.nameOf, hp]
      rw [entering_of_mem hmem, hname]
      refine .error fun _ name h => ?_
      cases h
      exact hblamed _ ⟨u.pid, p, hp, hauto, rfl, .refl, hcycle⟩
    · have hun := mem_unresolved.2 ⟨isAuto_of_getElem? hp hauto, hmem⟩
      have hlt := unresolved_cons_lt hun
      rw [entering_eq_ok.2 ⟨hun, rfl⟩]
      refine .ok fun v hv => ?_
      have hdepends : ctx.params.DependsOn u.pid v.pid := ⟨p, hp, v, hv, rfl⟩
      refine ih _ (hn ▸ hlt) (u.pid :: busy) rfl v blamed ?_ fun name h => ?_
      · intro b hb
        rcases List.mem_cons.1 hb with rfl | hb
        · exact .single hdepends
        · exact (hpath b hb).tail hdepends
      · exact hblamed name (h.head hdepends)

theorem node_blames (ctx : Context) (n : Node) {name : String}
    (h : ctx.node n = .error (.autoCycle name)) :
    ∃ u ∈ n.uses, ctx.params.LeadsToCycle u.pid name := by
  have hblames : ExceptRel.blames (fun name => ∃ u ∈ n.uses, ctx.params.LeadsToCycle u.pid name)
      Evaluation (ctx.node n) (ctx.node n) :=
    n.eval_congr (ExceptRel.blames_sequential _) fun u hu =>
      ctx.resolving_blames [] u _ (by simp) fun name h => ⟨u, hu, h⟩
  exact hblames name h

/-- A cycle is reported only where there is one. The failure names a computed parameter that the
tree reaches and that depends on itself, in one step or in more; so without such parameters no tree
fails in this way. -/
theorem cycle_is_genuine (ctx : Context) (n : Node) :
    (∀ name, ctx.node n = .error (.autoCycle name) →
      ∃ q p, ctx.params[q]? = some p ∧ p.isAuto = true ∧ p.name = name ∧
        n.Reaches ctx.params q ∧ Relation.TransGen ctx.params.DependsOn q q) ∧
    ((∀ q p, ctx.params[q]? = some p → p.isAuto = true →
        ¬Relation.TransGen ctx.params.DependsOn q q) →
      ∀ name, ctx.node n ≠ .error (.autoCycle name)) := by
  constructor
  · intro name h
    obtain ⟨u, hu, q, p, hp, hauto, hname, hreach, hcycle⟩ := ctx.node_blames n h
    exact ⟨q, p, hp, hauto, hname, ⟨u, hu, hreach⟩, hcycle⟩
  · intro hacyclic name h
    obtain ⟨u, -, q, p, hp, hauto, -, -, hcycle⟩ := ctx.node_blames n h
    exact hacyclic q p hp hauto hcycle

/-- A parameter that is its own value, and one that is read twice on the way to a sum. -/
theorem cycle_is_genuine_itself :
    let loop : Context :=
      ⟨[⟨"a", .int, .auto [⟨.bool true, .arith (.param 0 .int)⟩], false⟩], .empty, .deciding⟩
    let diamond : Context :=
      ⟨[⟨"a", .int, .auto [⟨.bool true, .arith (.int 1 "1")⟩], false⟩,
        ⟨"b", .int, .auto [⟨.not (.invalid 0), .arith (.param 0 .int)⟩], false⟩],
        .empty, .absorbing⟩
    loop.node (.arith (.param 0 .int)) = .error (.autoCycle "a") ∧
      Relation.TransGen loop.params.DependsOn 0 0 ∧
      ∀ name, diamond.node (.arith (.binary .add .int (.param 1 .int) (.param 0 .int))) ≠
        .error (.autoCycle name) := by
  intro loop diamond
  have hread : loop.read .number id (loop.entering []) 0 = .error (.autoCycle "a") := by
    rw [read_auto rfl rfl, entering_of_not_mem rfl rfl (by simp), ok_bind, resolving_eq]
    rfl
  have hloop : loop.node (.arith (.param 0 .int)) = .error (.autoCycle "a") := by
    rw [node, reading_eq, Node.eval, ArithExpr.eval]
    dsimp only [readings]
    rw [hread]
    rfl
  have hdown : ∀ q r, diamond.params.DependsOn q r → r < q := by
    rintro q r ⟨p, hp, u, hu, rfl⟩
    rcases q with _ | _ | q
    · cases hp
      cases hu
    · cases hp
      have hfirst : ∀ u ∈ [Use.validity 0, Use.number 0 .int], u.pid < 1 := by decide
      exact hfirst u hu
    · cases hp
  have hlt : ∀ q r, Relation.TransGen diamond.params.DependsOn q r → r < q := by
    intro q r h
    induction h with
    | single h => exact hdown _ _ h
    | tail _ h ih => exact Nat.lt_trans (hdown _ _ h) ih
  refine ⟨hloop, ?_, (cycle_is_genuine diamond _).2 fun q _ _ _ h => Nat.lt_irrefl q (hlt q q h)⟩
  obtain ⟨q, p, hp, -, -, -, hcycle⟩ := (cycle_is_genuine loop _).1 "a" hloop
  rcases q with _ | q
  · exact hcycle
  · cases hp

end Context

end TWay

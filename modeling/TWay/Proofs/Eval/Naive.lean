import Mathlib.Data.Nat.Find
import TWay.Proofs.Eval.Congruence

/-!
# The plain recursion

`Context.naive` reads computed parameters by plain recursion, without keeping track of what is being
resolved; where that does not come to an end, it runs out of fuel. The list of parameters that are
being resolved changes no answer: an evaluation with it succeeds exactly if the plain recursion
comes to an end, and with the same result (`node_eq_ok_iff_naive`). That list may be handed down or
pushed and popped, to the same effect (`Context.track_node`).

From left to right the fuel is the number of computed parameters. From right to left the point is
that a plain recursion which succeeds never reads a parameter inside its own resolution. The least
fuel with which the rules of a parameter come to something leaves too little for them to come to
something once more on the way, whatever kind of reading asks for it.
-/

namespace TWay

variable {ε ε' : Type}

/-! ## Results that carry over -/

/-- A result on the left is the result on the right; a failure on the left says nothing. -/
def ResultRel.below : ResultRel ε ε' := fun _ x y => ∀ v, x = .ok v → y = .ok v

/-- The same of outcomes that need not be values that may be invalid. -/
def ExceptRel.carries : ExceptRel ε ε' := fun _ x y => ∀ v, x = .ok v → y = .ok v

theorem ExceptRel.carries_sequential : (carries : ExceptRel ε ε').Sequential where
  ok _ _ h := by
    cases h
    rfl
  bind {α β x x' f f'} hx hf v hv := by
    obtain ⟨a, ha, hv⟩ := bind_eq_ok.1 hv
    exact bind_eq_ok.2 ⟨a, hx a ha, hf a ha v hv⟩

/-- Whatever reads on the left reads the same on the right. -/
def Readings.Below (r : Readings ε) (r' : Readings ε') : Prop :=
  ∀ u : Use, ResultRel.below.At r r' u

section

variable {r : Readings ε} {r' : Readings ε'} {policy : Policy}

theorem Node.eval_below (h : r.Below r') {n : Node} {x : Evaluation}
    (hx : n.eval policy r = .ok x) : n.eval policy r' = .ok x :=
  n.eval_congr ExceptRel.carries_sequential (fun u _ => h u) x hx

theorem fired_below (h : r.Below r') {rules : List AutoRule} {o : Option Evaluation}
    (ho : fired policy r rules = .ok o) : fired policy r' rules = .ok o := by
  rw [fired_eq_ok] at ho ⊢
  have hfirst : ExceptRel.carries (Option Node) (firstFiring policy r rules)
      (firstFiring policy r' rules) :=
    firstFiring_congr ExceptRel.carries_sequential fun _ _ u _ => h u
  rcases ho with ⟨hf, rfl⟩ | ⟨node, x, hf, hx, rfl⟩
  · exact .inl ⟨hfirst _ hf, rfl⟩
  · exact .inr ⟨node, x, hfirst _ hf, Node.eval_below h hx, rfl⟩

end

namespace Context

variable {ctx : Context}

section

variable {fail : EvalError → ε} {fail' : EvalError → ε'} {enter : ParamId → Except ε (Readings ε)}
  {enter' : ParamId → Except ε' (Readings ε')} {pid : ParamId}

/-- What the rules of a parameter come to on the left they come to on the right. -/
def Carries (ctx : Context) (enter : ParamId → Except ε (Readings ε))
    (enter' : ParamId → Except ε' (Readings ε')) (pid : ParamId) : Prop :=
  ∀ p rules, ctx.params[pid]? = some p → p.domain = .auto rules →
    ∀ inner o, enter pid = .ok inner → fired ctx.policy inner rules = .ok o →
      ∃ inner', enter' pid = .ok inner' ∧ fired ctx.policy inner' rules = .ok o

theorem read_below {α : Type} [Inhabited α] {kind : Kind α} {wrap : Evaluated α → Evaluation}
    (hk : kind.Faithful wrap) (h : ctx.Carries enter enter' pid) :
    ResultRel.below α (ctx.read kind fail enter pid) (ctx.read kind fail' enter' pid) := by
  intro v hv
  cases hp : ctx.params[pid]? with
  | none => simp [read, hp] at hv
  | some p =>
    cases hd : p.domain with
    | values values =>
      rw [read_values hp hd] at hv ⊢
      split at hv
      · cases hv
        rfl
      · split at hv
        · cases hv
          rfl
        · cases hv
    | auto rules =>
      rw [read_auto_eq_ok hk hp hd] at hv ⊢
      obtain ⟨inner, o, hi, hf, ho⟩ := hv
      obtain ⟨inner', hi', hf'⟩ := h p rules hp hd inner o hi hf
      exact ⟨inner', o, hi', hf', ho⟩

theorem readAs_below (h : ctx.Carries enter enter' pid) (type : ParamType) {x : Evaluation}
    (hx : ctx.readAs type fail enter pid = .ok x) : ctx.readAs type fail' enter' pid = .ok x := by
  cases type <;> rw [readAs, map_eq_ok] at hx ⊢ <;> obtain ⟨v, hv, rfl⟩ := hx
  · exact ⟨v, read_below Kind.number_faithful h v hv, rfl⟩
  · exact ⟨v, read_below Kind.number_faithful h v hv, rfl⟩
  · exact ⟨v, read_below Kind.string_faithful h v hv, rfl⟩
  · exact ⟨v, read_below Kind.boolean_faithful h v hv, rfl⟩

theorem readInvalid_below (h : ctx.Carries enter enter' pid) :
    ResultRel.below Bool (ctx.readInvalid fail enter pid) (ctx.readInvalid fail' enter' pid) := by
  intro v hv
  cases hp : ctx.params[pid]? with
  | none => simp [readInvalid, hp] at hv
  | some p =>
    cases hd : p.domain with
    | values values =>
      rw [readInvalid_values hp hd] at hv ⊢
      split at hv <;>
      · cases hv
        rfl
    | auto rules =>
      rw [readInvalid_auto_eq_ok hp hd] at hv ⊢
      obtain ⟨x, hx, rfl⟩ := hv
      exact ⟨x, readAs_below h p.type hx, rfl⟩

theorem readings_below (h : ∀ pid, ctx.Carries enter enter' pid) :
    (ctx.readings fail enter).Below (ctx.readings fail' enter')
  | .number pid _ => read_below Kind.number_faithful (h pid)
  | .string pid => read_below Kind.string_faithful (h pid)
  | .truth pid => read_below Kind.boolean_faithful (h pid)
  | .validity pid => readInvalid_below (h pid)

end

/-! ## Fuel -/

/-- How the parameters read by plain recursion, with fuel for so many resolutions inside each other.
`none` is the failure to come to an end within them. -/
def naive (ctx : Context) : Nat → Readings (Option EvalError)
  | 0 => ctx.readings some fun _ => .error none
  | fuel + 1 => ctx.readings some fun _ => .ok (ctx.naive fuel)

/-- More fuel keeps every result. -/
theorem naive_below_succ (ctx : Context) : ∀ fuel, (ctx.naive fuel).Below (ctx.naive (fuel + 1))
  | 0 => readings_below fun _ _ _ _ _ _ _ hi _ => by cases hi
  | fuel + 1 => readings_below fun _ _ _ _ _ inner _ hi hf => by
    cases hi
    exact ⟨_, rfl, fired_below (naive_below_succ ctx fuel) hf⟩

theorem fired_naive_mono {fuel fuel' : Nat} (hle : fuel ≤ fuel') {rules : List AutoRule}
    {o : Option Evaluation} (h : fired ctx.policy (ctx.naive fuel) rules = .ok o) :
    fired ctx.policy (ctx.naive fuel') rules = .ok o := by
  induction hle with
  | refl => exact h
  | step _ ih => exact fired_below (naive_below_succ ctx _) ih

/-! ## Both directions -/

/-- Each resolution takes one computed parameter out of the list of those that can be resolved, so
that fuel for all of them is enough. -/
theorem resolving_below_naive (ctx : Context) :
    ∀ (fuel : Nat) (busy : List ParamId), (ctx.unresolved busy).length ≤ fuel →
      (ctx.resolving busy).Below (ctx.naive fuel) := by
  intro fuel
  induction fuel with
  | zero =>
    intro busy hle
    rw [resolving_eq, naive]
    refine readings_below fun pid p rules hp hd inner o hi hf => ?_
    have hmem := (entering_eq_ok.1 hi).1
    rw [List.eq_nil_of_length_eq_zero (Nat.le_zero.1 hle)] at hmem
    cases hmem
  | succ fuel ih =>
    intro busy hle
    rw [resolving_eq, naive]
    refine readings_below fun pid p rules hp hd inner o hi hf => ?_
    obtain ⟨hmem, rfl⟩ := entering_eq_ok.1 hi
    have hlt := unresolved_cons_lt hmem
    exact ⟨_, rfl, fired_below (ih (pid :: busy) (by omega)) hf⟩

/-- The rules of the computed parameter come to something with this much fuel. -/
def Settles (ctx : Context) (fuel : Nat) (pid : ParamId) : Prop :=
  ∃ p rules o, ctx.params[pid]? = some p ∧ p.domain = .auto rules ∧
    fired ctx.policy (ctx.naive fuel) rules = .ok o

/-- The induction is on the fuel. What carries it is that the parameters which are being resolved
need more fuel than there is left, so that none of them is read. -/
theorem naive_below_resolving (ctx : Context) (fuel : Nat) :
    ∀ busy : List ParamId, (∀ b ∈ busy, ∀ k < fuel, ¬ctx.Settles k b) →
      (ctx.naive fuel).Below (ctx.resolving busy) := by
  induction fuel using Nat.strongRecOn with
  | ind fuel ih =>
    intro busy hbusy
    rw [resolving_eq]
    cases fuel with
    | zero => exact readings_below fun _ _ _ _ _ _ _ hi _ => by cases hi
    | succ m =>
      rw [naive]
      refine readings_below fun pid p rules hp hd inner o hi hf => ?_
      cases hi
      have hsettles : ∃ k, ctx.Settles k pid := ⟨m, p, rules, o, hp, hd, hf⟩
      have hnot : pid ∉ busy := fun hmem => hbusy pid hmem m (by omega) ⟨p, rules, o, hp, hd, hf⟩
      -- With the least fuel that is enough, the parameter itself needs more than there is left.
      obtain ⟨k, hk, hleast⟩ : ∃ k, ctx.Settles k pid ∧ ∀ j < k, ¬ctx.Settles j pid := by
        classical
        exact ⟨Nat.find hsettles, Nat.find_spec hsettles, fun j hj => Nat.find_min hsettles hj⟩
      have hkm : k ≤ m := Nat.le_of_not_lt fun hlt => hleast m hlt ⟨p, rules, o, hp, hd, hf⟩
      have hinner : (ctx.naive k).Below (ctx.resolving (pid :: busy)) := by
        refine ih k (by omega) (pid :: busy) fun b hb j hj => ?_
        rcases List.mem_cons.1 hb with rfl | hb
        · exact hleast j hj
        · exact hbusy b hb j (by omega)
      refine ⟨_, entering_of_not_mem hp hd hnot, fired_below hinner ?_⟩
      obtain ⟨p', rules', o', hp', hd', hf'⟩ := hk
      rw [hp] at hp'
      cases hp'
      rw [hd] at hd'
      cases hd'
      have hsame := fired_naive_mono hkm hf'
      rw [hf] at hsame
      cases hsame
      exact hf'

/-- The list of what is being resolved changes no answer. A tree of any family evaluates to a
result exactly if the plain recursion does with some amount of fuel, and then to the same one. -/
theorem node_eq_ok_iff_naive (ctx : Context) (n : Node) (x : Evaluation) :
    ctx.node n = .ok x ↔ ∃ fuel, n.eval ctx.policy (ctx.naive fuel) = .ok x := by
  constructor
  · intro h
    exact ⟨_, Node.eval_below (ctx.resolving_below_naive _ [] (Nat.le_refl _)) h⟩
  · rintro ⟨fuel, h⟩
    exact Node.eval_below (ctx.naive_below_resolving fuel [] (by simp)) h

end Context

end TWay

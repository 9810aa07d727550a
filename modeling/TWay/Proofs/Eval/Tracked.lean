import TWay.Proofs.Eval.Termination

/-!
# One list for all evaluations

The list of the computed parameters that are being resolved is handed down to their rules in
`Context.resolving`. Here it is a state that all evaluations share. A parameter is put on it before
its rules are looked at, and the last one put there is taken off behind them; everything else goes
on with the list that it finds (`while_resolving`). It turns out that whatever is evaluated leaves
the list as it was, also where it fails, and comes to what it would come to by itself, so that
evaluations over one list have no influence on each other. For a tree that is `Context.track_node`:
what is said of `Context.node` and of the list that it hands down is said of this one.
-/

namespace TWay

/-- A computation over the list of what is being resolved, which it may change, also where it fails.
`none` is the failure to keep within a limited depth. -/
def Tracked (α : Type) : Type := List ParamId → Except (Option EvalError) α × List ParamId

namespace Tracked

variable {α β : Type}

/-- The second computation goes on with the list that the first one leaves. -/
def bind (x : Tracked α) (f : α → Tracked β) : Tracked β := fun busy =>
  match x busy with
  | (.ok a, busy) => f a busy
  | (.error e, busy) => (.error e, busy)

instance : Monad Tracked where
  pure a := fun busy => (.ok a, busy)
  bind := bind

/-- An outcome to which the list is of no account. -/
def ofExcept (r : Except (Option EvalError) α) : Tracked α := fun busy => (r, busy)

/-- A computation with one parameter more on the list, unless it is there already. Behind it the
head of the list is taken off, whatever has become of the list and of the computation. -/
def whileResolving (name : String) (pid : ParamId) (x : Tracked α) : Tracked α := fun busy =>
  if pid ∈ busy then (.error (some (.autoCycle name)), busy)
  else
    match x (pid :: busy) with
    | (result, left) => (result, left.tail)

/-- The computation comes to this outcome on the given list, and leaves that as it was. -/
def ComesTo (x : Tracked α) (busy : List ParamId) (r : Except EvalError α) : Prop :=
  x busy = (r.mapError some, busy)

namespace ComesTo

variable {x : Tracked α} {busy : List ParamId} {r : Except EvalError α} {name : String}
  {pid : ParamId}

theorem pure (a : α) (busy : List ParamId) : (Pure.pure a : Tracked α).ComesTo busy (.ok a) := rfl

theorem ofExcept (r : Except EvalError α) (busy : List ParamId) :
    (Tracked.ofExcept (r.mapError some)).ComesTo busy r := rfl

theorem bind {f : α → Tracked β} {g : α → Except EvalError β} (hx : x.ComesTo busy r)
    (hf : ∀ a, (f a).ComesTo busy (g a)) : (x >>= f).ComesTo busy (r >>= g) := by
  show Tracked.bind x f busy = _
  rw [Tracked.bind, hx]
  cases r with
  | ok a => exact hf a
  | error e => rfl

theorem map (f : α → β) (hx : x.ComesTo busy r) : (f <$> x).ComesTo busy (f <$> r) := by
  have hmap := hx.bind fun a => pure (f a) busy
  cases r <;> exact hmap

/-- The parameter comes off the list behind the computation, since that leaves it where it was. -/
theorem whileResolving (hnot : pid ∉ busy) (hx : x.ComesTo (pid :: busy) r) :
    (Tracked.whileResolving name pid x).ComesTo busy r := by
  unfold ComesTo Tracked.whileResolving
  rw [if_neg hnot, hx]
  rfl

theorem whileResolving_of_mem (hmem : pid ∈ busy) :
    (Tracked.whileResolving name pid x).ComesTo busy (.error (.autoCycle name)) := by
  unfold ComesTo Tracked.whileResolving
  rw [if_pos hmem]
  rfl

end ComesTo

end Tracked

/-! ## Trees -/

/-- How each parameter reads over the list. -/
structure TrackedReadings where
  num : ParamId → Tracked (Evaluated Num)
  string : ParamId → Tracked (Evaluated String)
  bool : ParamId → Tracked (Evaluated Bool)
  invalid : ParamId → Tracked (Evaluated Bool)

mutual

/-- The text that a string expression gives. -/
def StrExpr.track (t : TrackedReadings) : StrExpr → Tracked (Evaluated String)
  | .const value => return .valid value
  | .param pid => t.string pid
  | .concat terms => StrExpr.trackAll t terms

/-- The terms one after the other, up to an invalid one. -/
def StrExpr.trackAll (t : TrackedReadings) : List StrExpr → Tracked (Evaluated String)
  | [] => return .valid ""
  | term :: terms => do
    let first ← term.track t
    if first.isValid then
      let rest ← StrExpr.trackAll t terms
      return Evaluated.both (fun x y => some (x ++ y)) first rest
    else return .invalid

end

mutual

/-- The number that an arithmetic expression gives. -/
def ArithExpr.track (policy : Policy) (t : TrackedReadings) : ArithExpr → Tracked (Evaluated Num)
  | .int value _ => return .valid (.int value)
  | .double value _ => return .valid (.double value)
  | .param pid type => return (← t.num pid).map fun n => n.convert type
  | .binary op type lhs rhs => do
    let a ← lhs.track policy t
    let b ← rhs.track policy t
    return Evaluated.both (op.result? type) a b
  | .neg operand => return (← operand.track policy t).map Num.neg
  | .cast type operand => return (← operand.track policy t).map fun n => n.convert type
  | .truth type operand =>
    return (← operand.track policy t).map fun b => (Num.ofBool b).convert type

/-- The truth of a constraint. -/
def Constraint.track (policy : Policy) (t : TrackedReadings) :
    Constraint → Tracked (Evaluated Bool)
  | .bool value => return .valid value
  | .param pid => t.bool pid
  | .invalid pid => t.invalid pid
  | .not operand => return (← operand.track policy t).map Bool.not
  | .logic op lhs rhs => do
    let a ← lhs.track policy t
    let b ← rhs.track policy t
    return policy.logic op a b
  | .arith op lhs rhs precision => do
    let a ← lhs.track policy t
    let b ← rhs.track policy t
    return Evaluated.both (fun x y => some (op.holds precision x y)) a b
  | .string op lhs rhs => do
    let a ← lhs.track t
    let b ← rhs.track t
    return Evaluated.both (fun x y => some (op.holds x y)) a b

end

/-- What a tree of any family gives. -/
def Node.track (policy : Policy) (t : TrackedReadings) : Node → Tracked Evaluation
  | .arith e => .num <$> e.track policy t
  | .string e => .string <$> e.track t
  | .constraint c => .bool <$> c.track policy t

/-- Each reading comes to what the other one says, and leaves the list as it was. -/
structure TrackedReadings.ComesTo (t : TrackedReadings) (busy : List ParamId)
    (r : Readings EvalError) : Prop where
  num : ∀ pid, (t.num pid).ComesTo busy (r.num pid)
  string : ∀ pid, (t.string pid).ComesTo busy (r.string pid)
  bool : ∀ pid, (t.bool pid).ComesTo busy (r.bool pid)
  invalid : ∀ pid, (t.invalid pid).ComesTo busy (r.invalid pid)

section

variable {t : TrackedReadings} {busy : List ParamId} {r : Readings EvalError} {policy : Policy}

mutual

theorem StrExpr.track_comesTo (h : t.ComesTo busy r) :
    ∀ e : StrExpr, (e.track t).ComesTo busy (e.eval r)
  | .const value => by
    rw [StrExpr.track, StrExpr.eval]
    exact .pure _ _
  | .param pid => by
    rw [StrExpr.track, StrExpr.eval]
    exact h.string pid
  | .concat terms => by
    rw [StrExpr.track, StrExpr.eval]
    exact StrExpr.trackAll_comesTo h terms

theorem StrExpr.trackAll_comesTo (h : t.ComesTo busy r) :
    ∀ terms : List StrExpr, (StrExpr.trackAll t terms).ComesTo busy (StrExpr.evalAll r terms)
  | [] => by
    rw [StrExpr.trackAll, StrExpr.evalAll]
    exact .pure _ _
  | term :: terms => by
    rw [StrExpr.trackAll, StrExpr.evalAll]
    refine (StrExpr.track_comesTo h term).bind fun first => ?_
    split
    · exact (StrExpr.trackAll_comesTo h terms).bind fun rest => .pure _ _
    · exact .pure _ _

end

mutual

theorem ArithExpr.track_comesTo (h : t.ComesTo busy r) :
    ∀ e : ArithExpr, (e.track policy t).ComesTo busy (e.eval policy r)
  | .int value text => by
    rw [ArithExpr.track, ArithExpr.eval]
    exact .pure _ _
  | .double value text => by
    rw [ArithExpr.track, ArithExpr.eval]
    exact .pure _ _
  | .param pid type => by
    rw [ArithExpr.track, ArithExpr.eval]
    exact (h.num pid).bind fun n => .pure _ _
  | .binary op type lhs rhs => by
    rw [ArithExpr.track, ArithExpr.eval]
    exact (ArithExpr.track_comesTo h lhs).bind fun a =>
      (ArithExpr.track_comesTo h rhs).bind fun b => .pure _ _
  | .neg operand => by
    rw [ArithExpr.track, ArithExpr.eval]
    exact (ArithExpr.track_comesTo h operand).bind fun n => .pure _ _
  | .cast type operand => by
    rw [ArithExpr.track, ArithExpr.eval]
    exact (ArithExpr.track_comesTo h operand).bind fun n => .pure _ _
  | .truth type operand => by
    rw [ArithExpr.track, ArithExpr.eval]
    exact (Constraint.track_comesTo h operand).bind fun b => .pure _ _

theorem Constraint.track_comesTo (h : t.ComesTo busy r) :
    ∀ c : Constraint, (c.track policy t).ComesTo busy (c.eval policy r)
  | .bool value => by
    rw [Constraint.track, Constraint.eval]
    exact .pure _ _
  | .param pid => by
    rw [Constraint.track, Constraint.eval]
    exact h.bool pid
  | .invalid pid => by
    rw [Constraint.track, Constraint.eval]
    exact h.invalid pid
  | .not operand => by
    rw [Constraint.track, Constraint.eval]
    exact (Constraint.track_comesTo h operand).bind fun b => .pure _ _
  | .logic op lhs rhs => by
    rw [Constraint.track, Constraint.eval]
    exact (Constraint.track_comesTo h lhs).bind fun a =>
      (Constraint.track_comesTo h rhs).bind fun b => .pure _ _
  | .arith op lhs rhs precision => by
    rw [Constraint.track, Constraint.eval]
    exact (ArithExpr.track_comesTo h lhs).bind fun a =>
      (ArithExpr.track_comesTo h rhs).bind fun b => .pure _ _
  | .string op lhs rhs => by
    rw [Constraint.track, Constraint.eval]
    exact (StrExpr.track_comesTo h lhs).bind fun a =>
      (StrExpr.track_comesTo h rhs).bind fun b => .pure _ _

end

theorem Node.track_comesTo (h : t.ComesTo busy r) (n : Node) :
    (n.track policy t).ComesTo busy (n.eval policy r) := by
  cases n with
  | arith e => exact (e.track_comesTo h).map _
  | string e => exact (e.track_comesTo h).map _
  | constraint c => exact (c.track_comesTo h).map _

end

/-! ## Rules -/

/-- The value of the first rule whose condition holds. -/
def trackedFiring (policy : Policy) (t : TrackedReadings) : List AutoRule → Tracked (Option Node)
  | [] => return none
  | rule :: rules => do
    if (← rule.condition.track policy t).holds then return some rule.value
    else trackedFiring policy t rules

/-- A kind of values, and how they are taken from a tree over the list. -/
structure TrackedKind (α : Type) where
  kind : Kind α
  track? : Policy → TrackedReadings → Node → Option (Tracked (Evaluated α))

namespace TrackedKind

def number : TrackedKind Num where
  kind := .number
  track? policy t
    | .arith e => some (e.track policy t)
    | _ => none

def string : TrackedKind String where
  kind := .string
  track? _ t
    | .string e => some (e.track t)
    | _ => none

def boolean : TrackedKind Bool where
  kind := .boolean
  track? policy t
    | .constraint c => some (c.track policy t)
    | _ => none

/-- What is taken from a tree comes to what the kind takes from it; where that is nothing, there is
something else to offer on both sides. -/
def Faithful {α : Type} (k : TrackedKind α) : Prop :=
  ∀ {t : TrackedReadings} {busy : List ParamId} {r : Readings EvalError} (policy : Policy)
    (n : Node) {x : Tracked (Evaluated α)} {y : Except EvalError (Evaluated α)},
    t.ComesTo busy r → x.ComesTo busy y →
      ((k.track? policy t n).getD x).ComesTo busy ((k.kind.eval? policy r n).getD y)

theorem number_faithful : number.Faithful := by
  intro t busy r policy n x y ht hx
  cases n with
  | arith e => exact e.track_comesTo ht
  | string e => exact hx
  | constraint c => exact hx

theorem string_faithful : string.Faithful := by
  intro t busy r policy n x y ht hx
  cases n with
  | arith e => exact hx
  | string e => exact e.track_comesTo ht
  | constraint c => exact hx

theorem boolean_faithful : boolean.Faithful := by
  intro t busy r policy n x y ht hx
  cases n with
  | arith e => exact hx
  | string e => exact hx
  | constraint c => exact c.track_comesTo ht

end TrackedKind

theorem trackedFiring_comesTo {policy : Policy} {t : TrackedReadings} {busy : List ParamId}
    {r : Readings EvalError} (h : t.ComesTo busy r) (rules : List AutoRule) :
    (trackedFiring policy t rules).ComesTo busy (firstFiring policy r rules) := by
  induction rules with
  | nil => exact .pure _ _
  | cons rule rules ih =>
    rw [trackedFiring, firstFiring]
    refine (rule.condition.track_comesTo h).bind fun v => ?_
    split
    · exact .pure _ _
    · exact ih

/-! ## Parameters -/

namespace Context

variable {α : Type}

/-- A parameter read over the list; `inner` says how the parameters read inside its rules, if those
may be entered at all. Where there are no rules, the list is not looked at. -/
def trackedRead [Inhabited α] (ctx : Context) (k : TrackedKind α) (inner : Option TrackedReadings)
    (pid : ParamId) : Tracked (Evaluated α) :=
  match (ctx.params[pid]?).filter Param.isAuto with
  | none => .ofExcept (ctx.read k.kind some (fun _ => .error none) pid)
  | some p => .whileResolving p.name pid <|
    match inner with
    | none => .ofExcept (.error none)
    | some t => do
      match ← trackedFiring ctx.policy t p.rules with
      | none => return .invalid
      | some node =>
        (k.track? ctx.policy t node).getD
          (.ofExcept (.error (some (.typeMismatch p.name k.kind.label p.type))))

/-- Whether a parameter is invalid, asked over the list. -/
def trackedInvalid (ctx : Context) (inner : Option TrackedReadings) (pid : ParamId) :
    Tracked (Evaluated Bool) :=
  match (ctx.params[pid]?).filter Param.isAuto with
  | none => .ofExcept (ctx.readInvalid some (fun _ => .error none) pid)
  | some p => do
    let isValid ← match p.type with
      | .int | .double => Evaluated.isValid <$> ctx.trackedRead .number inner pid
      | .string => Evaluated.isValid <$> ctx.trackedRead .string inner pid
      | .bool => Evaluated.isValid <$> ctx.trackedRead .boolean inner pid
    return .valid !isValid

/-- How all parameters read over the list. -/
def trackedReadings (ctx : Context) (inner : Option TrackedReadings) : TrackedReadings where
  num := ctx.trackedRead .number inner
  string := ctx.trackedRead .string inner
  bool := ctx.trackedRead .boolean inner
  invalid := ctx.trackedInvalid inner

/-- How the parameters read over the list, if so many may be resolved inside each other. -/
def tracked (ctx : Context) : Nat → TrackedReadings
  | 0 => ctx.trackedReadings none
  | depth + 1 => ctx.trackedReadings (some (ctx.tracked depth))

section

variable {ctx : Context} {busy : List ParamId} {inner : Option TrackedReadings}

/-- The rules of each computed parameter that is not on the list may be entered. -/
def Allows (ctx : Context) (busy : List ParamId) (inner : Option TrackedReadings) : Prop :=
  ∀ pid ∈ ctx.unresolved busy,
    ∃ t, inner = some t ∧ t.ComesTo (pid :: busy) (ctx.resolving (pid :: busy))

theorem trackedRead_comesTo [Inhabited α] {k : TrackedKind α} (hk : k.Faithful)
    (hc : k.kind.Congruent) (h : ctx.Allows busy inner) (pid : ParamId) :
    (ctx.trackedRead k inner pid).ComesTo busy (ctx.read k.kind id (ctx.entering busy) pid) := by
  unfold trackedRead
  split
  -- Without rules nothing is entered, so that both readings are the same whatever `enter` is.
  · rename_i hnone
    have hread : ExceptRel.retold some _ (ctx.read k.kind id (ctx.entering busy) pid)
        (ctx.read k.kind some (fun _ => .error none) pid) := by
      refine read_congr (ExceptRel.retold_sequential some) ExceptRel.retold_tells (.refl ctx pid)
        (fun p hp hauto => ?_) hc
      rw [hp, Option.filter_some, if_pos hauto] at hnone
      cases hnone
    rw [hread]
    exact .ofExcept _ _
  · rename_i p hsome
    obtain ⟨hp, hauto⟩ := Option.filter_eq_some_iff.1 hsome
    have hd := Param.domain_of_auto hauto
    rw [read_auto hp hd]
    by_cases hmem : pid ∈ busy
    · have hname : ctx.params.nameOf pid = p.name := by rw [Params.nameOf, hp]
      rw [entering_of_mem hmem, hname]
      exact .whileResolving_of_mem hmem
    · obtain ⟨t, rfl, ht⟩ := h pid (mem_unresolved.2 ⟨isAuto_of_getElem? hp hauto, hmem⟩)
      rw [entering_of_not_mem hp hd hmem, ok_bind]
      refine .whileResolving hmem ((trackedFiring_comesTo ht p.rules).bind fun o => ?_)
      cases o with
      | none => exact .pure _ _
      | some node => exact hk ctx.policy node ht (.ofExcept (.error _) _)

theorem trackedInvalid_comesTo (h : ctx.Allows busy inner) (pid : ParamId) :
    (ctx.trackedInvalid inner pid).ComesTo busy (ctx.readInvalid id (ctx.entering busy) pid) := by
  unfold trackedInvalid
  split
  · rename_i hnone
    have hread : ExceptRel.retold some _ (ctx.readInvalid id (ctx.entering busy) pid)
        (ctx.readInvalid some (fun _ => .error none) pid) := by
      refine readInvalid_congr (ExceptRel.retold_sequential some) ExceptRel.retold_tells
        (.refl ctx pid) fun p hp hauto => ?_
      rw [hp, Option.filter_some, if_pos hauto] at hnone
      cases hnone
    rw [hread]
    exact .ofExcept _ _
  · rename_i p hsome
    obtain ⟨hp, hauto⟩ := Option.filter_eq_some_iff.1 hsome
    have hd := Param.domain_of_auto hauto
    have hnum := trackedRead_comesTo TrackedKind.number_faithful Kind.number_congruent h pid
    have hstring := trackedRead_comesTo TrackedKind.string_faithful Kind.string_congruent h pid
    have hbool := trackedRead_comesTo TrackedKind.boolean_faithful Kind.boolean_congruent h pid
    unfold readInvalid
    simp only [hp, hd]
    cases p.type with
    | int | double => exact (hnum.map _).bind fun b => .pure _ _
    | string => exact (hstring.map _).bind fun b => .pure _ _
    | bool => exact (hbool.map _).bind fun b => .pure _ _

theorem trackedReadings_comesTo (h : ctx.Allows busy inner) :
    (ctx.trackedReadings inner).ComesTo busy (ctx.resolving busy) := by
  rw [resolving_eq]
  exact {
    num := trackedRead_comesTo TrackedKind.number_faithful Kind.number_congruent h
    string := trackedRead_comesTo TrackedKind.string_faithful Kind.string_congruent h
    bool := trackedRead_comesTo TrackedKind.boolean_faithful Kind.boolean_congruent h
    invalid := trackedInvalid_comesTo h }

end

/-- The induction is on the depth, which allows for each computed parameter that is not on the list.
Those on it are not entered. -/
theorem tracked_comesTo (ctx : Context) : ∀ (depth : Nat) (busy : List ParamId),
    (ctx.unresolved busy).length ≤ depth →
      (ctx.tracked depth).ComesTo busy (ctx.resolving busy) := by
  intro depth
  induction depth with
  | zero =>
    intro busy hle
    refine trackedReadings_comesTo fun pid hpid => ?_
    have hpos := List.length_pos_of_mem hpid
    omega
  | succ depth ih =>
    intro busy hle
    refine trackedReadings_comesTo fun pid hpid => ⟨_, rfl, ih (pid :: busy) ?_⟩
    have hlt := unresolved_cons_lt hpid
    omega

/-- Outside of any rule nothing is being resolved, and there is room for each computed parameter. -/
theorem tracked_comesTo_reading (ctx : Context) :
    (ctx.tracked (ctx.params.countP Param.isAuto)).ComesTo [] ctx.reading :=
  ctx.tracked_comesTo _ [] (Nat.le_of_eq ctx.length_unresolved_nil)

/-- A tree that is evaluated while some parameters are on the list comes to what it gives while these
are being resolved, and leaves the list as it was. -/
theorem track_resolving (ctx : Context) (n : Node) {busy : List ParamId} {depth : Nat}
    (hdepth : (ctx.unresolved busy).length ≤ depth) :
    n.track ctx.policy (ctx.tracked depth) busy =
      ((n.eval ctx.policy (ctx.resolving busy)).mapError some, busy) :=
  n.track_comesTo (ctx.tracked_comesTo depth busy hdepth)

/-- A tree comes to the same over the list, which is empty before and behind it, also where the tree
fails. -/
theorem track_node (ctx : Context) (n : Node) :
    n.track ctx.policy (ctx.tracked (ctx.params.countP Param.isAuto)) [] =
      ((ctx.node n).mapError some, []) :=
  ctx.track_resolving n (Nat.le_of_eq ctx.length_unresolved_nil)

end Context

end TWay

import TWay.Build.Builder
import TWay.Proofs.Build.Attempt
import TWay.Proofs.Build.Draft
import TWay.Proofs.Build.Invalidation

/-!
# Steps and calls taken apart

A step goes the same way with every log (`Step.Blind`), so that it is enough to follow it without
one. A step that succeeds gives an answer and a draft (`Step.Gives`), and each step that changes a
draft is told here by the draft after it. A step that fails does so in order (`Step.Orderly`): it
leaves the draft as it was, since all that it looks at comes before what it changes. So two builders
with the same draft take a call alike, whatever their logs are (`Builder.call_alike`), and all that
a call does to a draft, beyond the steps that succeed, is to set its options
(`Builder.call_cases`).
-/

namespace TWay

/-- A builder whose log is told nothing is as it was. -/
theorem Builder.told_nothing {L α : Type} [Logger L] (result : α) (log : Option L) (d : Draft) :
    (result, (⟨log, d⟩ : Builder L)) = (result, ⟨log.map (Logger.hear []), d⟩) := by
  rw [Logger.map_hear_nil]

theorem Builder.eq_silent (b : Builder Empty) : b = ⟨none, b.draft⟩ := by
  obtain ⟨log, d⟩ := b
  cases log with
  | none => rfl
  | some log => exact log.elim

namespace Step

variable {L α β : Type}

/-! ## Steps in a row -/

theorem bind_of_ok {x : Step L α} {f : α → Step L β} {b b' : Builder L} {a : α}
    (h : x b = (.ok a, b')) : (x >>= f) b = f a b' := by
  show Step.bind x f b = _
  rw [Step.bind, h]

theorem bind_of_error {x : Step L α} {f : α → Step L β} {b b' : Builder L} {e : Failure}
    (h : x b = (.error e, b')) : (x >>= f) b = (.error e, b') := by
  show Step.bind x f b = _
  rw [Step.bind, h]

theorem map_apply (f : α → β) (x : Step L α) (b : Builder L) :
    (f <$> x) b = (f <$> (x b).1, (x b).2) := by
  show (x >>= fun a => pure (f a)) b = _
  rcases h : x b with ⟨r, b'⟩
  cases r with
  | ok a => exact bind_of_ok h
  | error e => exact bind_of_error h

/-! ## The same with two logs -/

section

variable {L' : Type} [Logger L] [Logger L']

/-- Two steps, each of a builder with a log of its own kind, go alike: from the same draft they come
to the same result and the same draft, and the two logs hear the same messages, whose errors are
those of the result. -/
def Alike (x : Step L α) (x' : Step L' α) : Prop :=
  ∀ d log log', ∃ r messages d', x ⟨log, d⟩ = (r, ⟨log.map (Logger.hear messages), d'⟩) ∧
    x' ⟨log', d⟩ = (r, ⟨log'.map (Logger.hear messages), d'⟩) ∧
    Message.errors messages = reportOf r

theorem Alike.bind {x : Step L α} {x' : Step L' α} {f : α → Step L β} {f' : α → Step L' β}
    (hx : x.Alike x') (hf : ∀ a, (f a).Alike (f' a)) : (x >>= f).Alike (x' >>= f') := by
  intro d log log'
  obtain ⟨r, messages, d₁, hr, hr', herrors⟩ := hx d log log'
  cases r with
  | error e => exact ⟨.error e, messages, d₁, bind_of_error hr, bind_of_error hr', herrors⟩
  | ok a =>
    obtain ⟨r, more, d', hmade, hmade', hmore⟩ :=
      hf a d₁ (log.map (Logger.hear messages)) (log'.map (Logger.hear messages))
    refine ⟨r, messages ++ more, d', ?_, ?_, ?_⟩
    · rw [bind_of_ok hr, hmade, Logger.map_hear_append]
    · rw [bind_of_ok hr', hmade', Logger.map_hear_append]
    · rw [Message.errors_append, herrors, hmore]
      rfl

theorem Alike.attempt {ε : Type} [ToString ε] (failure : ε → Failure)
    (hfailure : ∀ e, toString (failure e) = toString e) {f : Draft → Attempt L ε α}
    {f' : Draft → Attempt L' ε α} (hf : ∀ d, (f d).Alike (f' d)) :
    (Step.attempt failure f).Alike (Step.attempt failure f') := by
  intro d log log'
  obtain ⟨r, messages, hr, hr', herrors⟩ := Attempt.Alike.mapError (hf d) hfailure log log'
  refine ⟨r, messages, d, ?_, ?_, herrors⟩
  · exact congrArg (fun made => (made.1, (⟨made.2, d⟩ : Builder L))) hr
  · exact congrArg (fun made => (made.1, (⟨made.2, d⟩ : Builder L'))) hr'

end

/-- A step of a builder with any log goes alike with all of them. -/
def Blind (x : ∀ {L : Type} [Logger L], Step L α) : Prop :=
  ∀ (L L' : Type) [Logger L] [Logger L'], (@x L _).Alike (@x L' _)

theorem Blind.modify (f : Draft → Draft) : Blind (Step.modify f) := fun _ _ _ _ d log log' =>
  ⟨.ok (), [], f d, Builder.told_nothing _ log (f d), Builder.told_nothing _ log' (f d), rfl⟩

variable {d d' : Draft}

/-! ## Steps that succeed -/

/-- What comes of a draft when there is no log. -/
def on (x : Step Empty α) (d : Draft) : Except Failure α × Draft :=
  ((x ⟨none, d⟩).1, (x ⟨none, d⟩).2.draft)

/-- The step comes to this result, and leaves this draft. -/
def Gives (x : Step Empty α) (d : Draft) (a : α) (d' : Draft) : Prop := x.on d = (.ok a, d')

theorem apply_eq (x : Step Empty α) (d : Draft) :
    x ⟨none, d⟩ = ((x.on d).1, ⟨none, (x.on d).2⟩) :=
  Prod.ext rfl (Builder.eq_silent _)

theorem on_bind_of_ok {x : Step Empty α} {f : α → Step Empty β} {a : α}
    (h : x.on d = (.ok a, d')) : (x >>= f).on d = (f a).on d' := by
  have hx : x ⟨none, d⟩ = (.ok a, ⟨none, d'⟩) := by rw [x.apply_eq, h]
  rw [on, on, bind_of_ok hx]

theorem on_bind_of_error {x : Step Empty α} {f : α → Step Empty β} {e : Failure}
    (h : x.on d = (.error e, d')) : (x >>= f).on d = (.error e, d') := by
  have hx : x ⟨none, d⟩ = (.error e, ⟨none, d'⟩) := by rw [x.apply_eq, h]
  rw [on, bind_of_error hx]

theorem pure_gives {a b : α} : (pure a : Step Empty α).Gives d b d' ↔ b = a ∧ d' = d := by
  show (Except.ok a, d) = (Except.ok b, d') ↔ _
  rw [Prod.mk.injEq, Except.ok.injEq, eq_comm, eq_comm (a := d)]

theorem bind_gives {x : Step Empty α} {f : α → Step Empty β} {b : β} :
    (x >>= f).Gives d b d' ↔ ∃ a d₁, x.Gives d a d₁ ∧ (f a).Gives d₁ b d' := by
  unfold Gives
  rcases h : x.on d with ⟨r, d₁⟩
  cases r with
  | error e => simp [on_bind_of_error h]
  | ok a => simp [on_bind_of_ok h]

theorem map_gives {x : Step Empty α} {f : α → β} {b : β} :
    (f <$> x).Gives d b d' ↔ ∃ a, x.Gives d a d' ∧ b = f a := by
  show (x >>= fun a => pure (f a)).Gives d b d' ↔ _
  rw [bind_gives]
  constructor
  · rintro ⟨a, d₁, hx, hpure⟩
    obtain ⟨rfl, rfl⟩ := pure_gives.1 hpure
    exact ⟨a, hx, rfl⟩
  · rintro ⟨a, hx, rfl⟩
    exact ⟨a, d', hx, pure_gives.2 ⟨rfl, rfl⟩⟩

theorem on_attempt {ε : Type} (failure : ε → Failure) (f : Draft → Attempt Empty ε α)
    (d : Draft) : (attempt failure f).on d = ((f d).result.mapError failure, d) := rfl

theorem attempt_gives {ε : Type} {failure : ε → Failure} {f : Draft → Attempt Empty ε α} {a : α} :
    (attempt failure f).Gives d a d' ↔ (f d).result = .ok a ∧ d' = d := by
  rw [Gives, on_attempt, Prod.mk.injEq, mapError_eq_ok, eq_comm (a := d)]

theorem reads_gives {f : Draft → Attempt Empty BuildError α} {a : α} :
    (reads f).Gives d a d' ↔ (f d).result = .ok a ∧ d' = d := attempt_gives

theorem get_gives {a : Draft} : get.Gives d a d' ↔ a = d ∧ d' = d := by
  rw [get, reads_gives, Attempt.result_ok, Except.ok.injEq, eq_comm]

theorem not_fail_gives {e : BuildError} {a : α} : ¬(fail e : Step Empty α).Gives d a d' := by
  rw [fail, reads_gives]
  rintro ⟨h, -⟩
  cases h

theorem modify_gives {f : Draft → Draft} {u : Unit} : (modify f).Gives d u d' ↔ d' = f d := by
  show (Except.ok (), f d) = (Except.ok u, d') ↔ _
  rw [Prod.mk.injEq, eq_comm (a := f d)]
  exact ⟨fun h => h.2, fun h => ⟨rfl, h⟩⟩

theorem addParam_gives {p : Param} {pid : ParamId} :
    (addParam p).Gives d pid d' ↔
      d.params.idOf? p.name = none ∧ pid = d.params.length ∧
        d' = { d with params := d.params ++ [p] } := by
  simp only [addParam, bind_gives, get_gives]
  constructor
  · rintro ⟨_, _, ⟨rfl, rfl⟩, h⟩
    split at h
    · exact absurd h not_fail_gives
    · rename_i hnew
      obtain ⟨_, _, hmodify, hpure⟩ := bind_gives.1 h
      obtain ⟨rfl, rfl⟩ := pure_gives.1 hpure
      exact ⟨Option.not_isSome_iff_eq_none.1 hnew, rfl, modify_gives.1 hmodify⟩
  · rintro ⟨hnew, rfl, rfl⟩
    refine ⟨d, d, ⟨rfl, rfl⟩, ?_⟩
    rw [if_neg (by simp [hnew])]
    exact bind_gives.2 ⟨(), _, modify_gives.2 rfl, pure_gives.2 ⟨rfl, rfl⟩⟩

theorem declare_gives {x : Attempt Empty BuildError Param} {pid : ParamId} :
    (declare x).Gives d pid d' ↔ ∃ p, x.result = .ok p ∧ (addParam p).Gives d pid d' := by
  simp only [declare, bind_gives, reads_gives]
  constructor
  · rintro ⟨p, _, ⟨hp, rfl⟩, hadd⟩
    exact ⟨p, hp, hadd⟩
  · rintro ⟨p, hp, hadd⟩
    exact ⟨p, d, ⟨hp, rfl⟩, hadd⟩

theorem setOption_gives {name : String} {value : Node} {u : Unit}
    (h : (setOption name value).Gives d u d') : ∃ options, d' = { d with options } := by
  unfold setOption at h
  split at h
  · exact absurd h not_fail_gives
  · split at h
    · exact ⟨_, modify_gives.1 h⟩
    · exact ⟨_, modify_gives.1 h⟩
    · exact absurd h not_fail_gives

theorem invalidations_gives {cs : List Constraint} :
    invalidations.Gives d cs d' ↔ d.invalidations.result = .ok cs ∧ d' = d := attempt_gives

theorem addStrength_gives {pids : List ParamId} {degree : Nat} {s : Strength} :
    (addStrength pids degree).Gives d s d' ↔
      degree ≤ pids.length ∧ s = ⟨pids, degree⟩ ∧
        d' = { d with strengths := d.strengths ++ [s] } := by
  unfold addStrength
  split
  · refine ⟨fun h => absurd h not_fail_gives, ?_⟩
    rintro ⟨hle, -⟩
    omega
  · simp only [bind_gives, modify_gives, pure_gives]
    constructor
    · rintro ⟨_, _, rfl, rfl, rfl⟩
      exact ⟨by omega, rfl, rfl⟩
    · rintro ⟨-, rfl, rfl⟩
      exact ⟨(), _, rfl, rfl, rfl⟩

theorem defaultStrength_gives {degree : Nat} {s : Strength} :
    (defaultStrength degree).Gives d s d' ↔ (addStrength d.eligible degree).Gives d s d' := by
  simp only [defaultStrength, bind_gives, get_gives]
  constructor
  · rintro ⟨_, _, ⟨rfl, rfl⟩, h⟩
    exact h
  · exact fun h => ⟨d, d, ⟨rfl, rfl⟩, h⟩

theorem namedStrength_gives {names : List String} {degree : Nat} {s : Strength} :
    (namedStrength names degree).Gives d s d' ↔
      ∃ pids, (names.mapM d.named).result = .ok pids ∧
        (addStrength ((List.range d.params.length).filter pids.flatten.contains) degree).Gives
          d s d' := by
  simp only [namedStrength, bind_gives, reads_gives, get_gives]
  constructor
  · rintro ⟨pids, _, ⟨hpids, rfl⟩, _, _, ⟨rfl, rfl⟩, h⟩
    exact ⟨pids, hpids, h⟩
  · rintro ⟨pids, hpids, h⟩
    exact ⟨pids, d, ⟨hpids, rfl⟩, d, d, ⟨rfl, rfl⟩, h⟩

theorem recordFor_gives {reason : Node} {name : String} {u : Unit} :
    (recordFor reason name).Gives d u d' ↔
      d' = { d with
        reasons := d.reasons ++ ((d.params.idOf? name).map fun pid => (pid, reason)).toList } := by
  simp only [recordFor, bind_gives, get_gives]
  constructor
  · rintro ⟨_, _, ⟨rfl, rfl⟩, h⟩
    split at h
    · rename_i hid
      obtain ⟨-, rfl⟩ := reads_gives.1 h
      simp [hid]
    · rename_i pid hid
      rw [modify_gives.1 h, hid]
      rfl
  · rintro rfl
    refine ⟨d, d, ⟨rfl, rfl⟩, ?_⟩
    cases hid : d.params.idOf? name with
    | none => exact reads_gives.2 ⟨rfl, by simp⟩
    | some pid => exact modify_gives.2 rfl

/-- Recording adds one entry for each name that is found. -/
theorem record_gives {reason : Node} {names : List String} {u : Unit} :
    (record reason names).Gives d u d' ↔
      d' = { d with
        reasons := d.reasons ++ names.filterMap fun name =>
          (d.params.idOf? name).map fun pid => (pid, reason) } := by
  induction names generalizing d with
  | nil => simp [record, pure_gives]
  | cons name names ih =>
    simp only [record, bind_gives, recordFor_gives, ih]
    have hnames : (name :: names).filterMap
          (fun name => (d.params.idOf? name).map fun pid => (pid, reason)) =
        ((d.params.idOf? name).map fun pid => (pid, reason)).toList ++
          names.filterMap fun name => (d.params.idOf? name).map fun pid => (pid, reason) := by
      cases hid : d.params.idOf? name <;> simp [hid]
    rw [hnames, ← List.append_assoc]
    constructor
    · rintro ⟨_, _, rfl, rfl⟩
      rfl
    · rintro rfl
      exact ⟨(), _, rfl, rfl⟩

/-! ## Steps that fail -/

/-- The step leaves the draft as it is. -/
def Leaves (x : Step Empty α) : Prop := ∀ d, (x.on d).2 = d

def NeverFails (x : Step Empty α) : Prop := ∀ d e, (x.on d).1 ≠ .error e

/-- A step is in order when it goes the same way with every log, and leaves the draft as it was when
it fails. If it was halted, the constraints that it gives are those built from the draft. -/
structure Orderly (x : ∀ {L : Type} [Logger L], Step L α) : Prop where
  blind : Blind x
  atomic : ∀ d e, (on x d).1 = .error e → (on x d).2 = d
  halted : ∀ d h, (on x d).1 = .error (.halted h) → d.Builds h.built

theorem attempt_leaves {ε : Type} (failure : ε → Failure) (f : Draft → Attempt Empty ε α) :
    (attempt failure f).Leaves := fun _ => rfl

theorem pure_neverFails (a : α) : (pure a : Step Empty α).NeverFails := by
  intro d e h
  cases h

theorem modify_neverFails (f : Draft → Draft) : (modify f).NeverFails := by
  intro d e h
  cases h

theorem NeverFails.bind {x : Step Empty α} {f : α → Step Empty β} (hx : x.NeverFails)
    (hf : ∀ a, (f a).NeverFails) : (x >>= f).NeverFails := by
  intro d e h
  rcases hmade : x.on d with ⟨r, d₁⟩
  cases r with
  | error e' => exact hx d e' (congrArg Prod.fst hmade)
  | ok a =>
    rw [on_bind_of_ok hmade] at h
    exact hf a d₁ e h

namespace Orderly

theorem reads {f : ∀ {L : Type} [Logger L], Draft → Attempt L BuildError α}
    (hf : ∀ d, Attempt.Blind (f d)) : Orderly (Step.reads f) where
  blind L L' _ _ := .attempt .refused (fun _ => rfl) fun d => hf d L L'
  atomic _ _ _ := rfl
  halted d h hhalted := by
    rw [Step.reads, on_attempt] at hhalted
    cases hmade : (f d).result <;> rw [hmade] at hhalted <;> cases hhalted

theorem modify (f : Draft → Draft) : Orderly (Step.modify f) where
  blind := .modify f
  atomic _ _ h := by cases h
  halted _ _ h := by cases h

theorem pure (a : α) : Orderly (Pure.pure a) where
  blind _ _ _ _ d log log' :=
    ⟨.ok a, [], d, Builder.told_nothing _ log d, Builder.told_nothing _ log' d, rfl⟩
  atomic _ _ _ := rfl
  halted _ _ h := by cases h

/-- The second step may fail only where the first one has changed nothing yet. -/
theorem bind {x : ∀ {L : Type} [Logger L], Step L α}
    {f : ∀ {L : Type} [Logger L], α → Step L β} (hx : Orderly x) (hf : ∀ a, Orderly (f a))
    (horder : Leaves x ∨ ∀ a, NeverFails (f a)) : Orderly (x >>= f) where
  blind L L' _ _ := .bind (hx.blind L L') fun a => (hf a).blind L L'
  atomic d e h := by
    rcases hmade : on x d with ⟨r, d₁⟩
    cases r with
    | error e' =>
      rw [on_bind_of_error hmade]
      exact (congrArg Prod.snd hmade).symm.trans (hx.atomic d e' (congrArg Prod.fst hmade))
    | ok a =>
      rw [on_bind_of_ok hmade] at h ⊢
      rcases horder with hleaves | hnever
      · exact ((hf a).atomic d₁ e h).trans ((congrArg Prod.snd hmade).symm.trans (hleaves d))
      · exact absurd h (hnever a d₁ e)
  halted d h hhalted := by
    rcases hmade : on x d with ⟨r, d₁⟩
    cases r with
    | error e' =>
      rw [on_bind_of_error hmade] at hhalted
      cases hhalted
      exact hx.halted d h (congrArg Prod.fst hmade)
    | ok a =>
      rw [on_bind_of_ok hmade] at hhalted
      rcases horder with hleaves | hnever
      · obtain rfl : d₁ = d := (congrArg Prod.snd hmade).symm.trans (hleaves d)
        exact (hf a).halted d₁ h hhalted
      · exact absurd hhalted (hnever a d₁ _)

theorem map {x : ∀ {L : Type} [Logger L], Step L α} (f : α → β) (hx : Orderly x) :
    Orderly (f <$> x) :=
  bind hx (fun a => pure (f a)) (.inr fun a => pure_neverFails (f a))

theorem get : Orderly Step.get := reads fun d => .ok d

theorem fail (e : BuildError) : Orderly (α := α) (Step.fail e) := reads fun _ => .fail e

theorem addParam (p : Param) : Orderly (Step.addParam p) := by
  refine bind get (fun d => ?_) (.inl (attempt_leaves _ _))
  split
  · exact fail _
  · exact bind (modify _) (fun _ => pure _) (.inr fun _ => pure_neverFails _)

theorem declare {x : ∀ {L : Type} [Logger L], Attempt L BuildError Param} (hx : Attempt.Blind x) :
    Orderly (Step.declare x) :=
  bind (reads fun _ => hx) addParam (.inl (attempt_leaves _ _))

theorem setOption (name : String) (value : Node) : Orderly (Step.setOption name value) := by
  unfold Step.setOption
  split
  · exact fail _
  · split
    · exact modify _
    · exact modify _
    · exact fail _

theorem recordFor (reason : Node) (name : String) : Orderly (Step.recordFor reason name) := by
  refine bind get (fun d => ?_) (.inl (attempt_leaves _ _))
  split
  · exact reads fun _ => .warn _
  · exact modify _

theorem invalidations : Orderly Step.invalidations where
  blind L L' _ _ := .attempt .halted (fun _ => rfl) fun d => d.invalidations_terse.blind L L'
  atomic _ _ _ := rfl
  halted d h hhalted := by
    refine .inr ⟨h.cause, ?_⟩
    rw [Step.invalidations, on_attempt] at hhalted
    cases hresult : d.invalidations.result with
    | ok cs =>
      rw [hresult] at hhalted
      cases hhalted
    | error h' =>
      rw [hresult] at hhalted
      cases hhalted
      rfl

theorem addStrength (pids : List ParamId) (degree : Nat) :
    Orderly (Step.addStrength pids degree) := by
  unfold Step.addStrength
  split
  · exact fail _
  · exact bind (modify _) (fun _ => pure _) (.inr fun _ => pure_neverFails _)

theorem defaultStrength (degree : Nat) : Orderly (Step.defaultStrength degree) :=
  bind get (fun d => addStrength d.eligible degree) (.inl (attempt_leaves _ _))

theorem namedStrength (names : List String) (degree : Nat) :
    Orderly (Step.namedStrength names degree) := by
  refine bind (reads fun d => .mapM d.named_blind names) (fun pids => ?_)
    (.inl (attempt_leaves _ _))
  exact bind get (fun d => addStrength _ degree) (.inl (attempt_leaves _ _))

end Orderly

theorem recordFor_neverFails (reason : Node) (name : String) :
    (recordFor reason name).NeverFails := by
  refine .bind (fun d e h => by cases h) fun d => ?_
  split
  · intro d e h
    cases h
  · exact modify_neverFails _

theorem record_neverFails (reason : Node) (names : List String) :
    (record reason names).NeverFails := by
  induction names with
  | nil => exact pure_neverFails ()
  | cons name names ih => exact .bind (recordFor_neverFails reason name) fun _ => ih

theorem Orderly.record (reason : Node) (names : List String) :
    Orderly (Step.record reason names) := by
  induction names with
  | nil => exact .pure ()
  | cons name names ih =>
    have hnever : ∀ _ : Unit, NeverFails (Step.record reason names) :=
      fun _ => record_neverFails reason names
    exact .bind (.recordFor reason name) (fun _ => ih) (.inr hnever)

end Step

open Step (Orderly)

/-- Every step of a builder is in order. -/
theorem Command.attempt_orderly (command : Command) : Orderly command.attempt := by
  cases command with
  | reference name => exact .map _ (.reads fun d => d.reference_blind name)
  | boolLiteral text => exact .map _ (.reads fun _ => Build.boolLiteral_blind text)
  | arith op lhs rhs => exact .map _ (.reads fun _ => Build.arith_blind op lhs rhs)
  | unaryArith op a => exact .map _ (.reads fun _ => Build.unaryArith_blind op a)
  | cast a target => exact .map _ (.reads fun _ => Build.cast_blind a target)
  | concat terms => exact .map _ (.reads fun _ => Build.concat_blind terms)
  | relation op lhs rhs token =>
    exact .map _ (.reads fun _ => Build.relation_blind op _ lhs rhs token)
  | arithConstraint op lhs rhs precision =>
    exact .map _ (.reads fun _ => Build.arithConstraint_blind op lhs rhs precision)
  | stringConstraint op lhs rhs =>
    exact .map _ (.reads fun _ => Build.stringConstraint_blind op lhs rhs)
  | logical op lhs rhs => exact .map _ (.reads fun _ => Build.logical_blind op lhs rhs)
  | unaryLogical op a => exact .map _ (.reads fun _ => Build.unaryLogical_blind op a)
  | marker name => exact .map _ (.reads fun d => d.marker?_blind name)
  | staticParam type name values =>
    exact .map _ (.reads fun _ => Build.staticParam_blind type name values)
  | autoParam type name rules =>
    exact .map _ (.reads fun _ => Build.autoParam_blind type name rules)
  | declare type name values =>
    exact .map _ (.declare (Build.staticParam_blind type name values))
  | declareAuto type name rules =>
    exact .map _ (.declare (Build.autoParam_blind type name rules))
  | addParam p => exact .map _ (.addParam p)
  | setOption name value => exact .map _ (.setOption name value)
  | addConstraint c => exact .map _ (.modify _)
  | choice name value => exact .map _ (.reads fun d => d.choice?_blind name value)
  | addSeed seed => exact .map _ (.modify _)
  | record names reason => exact .map _ (.record reason names)
  | invalidations => exact .map _ .invalidations
  | defaultStrength degree => exact .map _ (.defaultStrength degree)
  | namedStrength names degree => exact .map _ (.namedStrength names degree)

/-! ## Calls -/

namespace Builder

variable {L : Type} [Logger L]

/-- A step with a log is the step without one, and the log hears the failure if there is one. -/
theorem call_step (command : Command) (b : Builder L) :
    ∃ messages, b.call (.step command) = ((command.attempt.on b.draft).1,
      ⟨b.log.map (Logger.hear messages), (command.attempt.on b.draft).2⟩) ∧
      Message.errors messages = reportOf (command.attempt.on b.draft).1 := by
  obtain ⟨r, messages, d', hmade, hsilent, herrors⟩ :=
    command.attempt_orderly.blind L Empty b.draft b.log none
  have hon : command.attempt.on b.draft = (r, d') :=
    congrArg (fun made : Outcome × Builder Empty => (made.1, made.2.draft)) hsilent
  rw [hon]
  exact ⟨messages, hmade, herrors⟩

theorem call_step_eq_ok {command : Command} {b : Builder L} {a : Answer} :
    (b.call (.step command)).1 = .ok a ↔
      command.attempt.Gives b.draft a (b.call (.step command)).2.draft := by
  obtain ⟨messages, hmade, -⟩ := call_step command b
  rw [hmade]
  exact ⟨fun h => Prod.ext h rfl, fun h => congrArg Prod.fst h⟩

theorem call_step_eq_error {command : Command} {b : Builder L} {e : Failure} :
    (b.call (.step command)).1 = .error e ↔
      (command.attempt.on b.draft).1 = .error e ∧
        (b.call (.step command)).2.draft = b.draft := by
  obtain ⟨messages, hmade, -⟩ := call_step command b
  rw [hmade]
  exact ⟨fun h => ⟨h, command.attempt_orderly.atomic b.draft e h⟩, fun h => h.1⟩

/-- A step that only reads gives what it reads. -/
theorem call_reads_eq_ok {α : Type} {command : Command} {answer : α → Answer}
    {f : Draft → Attempt Empty BuildError α} (hreads : command.attempt = answer <$> .reads f)
    {b : Builder L} {a : Answer} :
    (b.call (.step command)).1 = .ok a ↔ ∃ x, (f b.draft).result = .ok x ∧ a = answer x := by
  obtain ⟨messages, hmade, -⟩ := call_step command b
  rw [hmade]
  constructor
  · intro hcall
    have hgives : command.attempt.Gives b.draft a (command.attempt.on b.draft).2 :=
      Prod.ext hcall rfl
    obtain ⟨x, hx, rfl⟩ := Step.map_gives.1 (hreads ▸ hgives)
    exact ⟨x, (Step.reads_gives.1 hx).1, rfl⟩
  · rintro ⟨x, hx, rfl⟩
    have hgives : command.attempt.Gives b.draft (answer x) b.draft :=
      hreads ▸ Step.map_gives.2 ⟨x, Step.reads_gives.2 ⟨hx, rfl⟩, rfl⟩
    exact congrArg Prod.fst hgives

/-- What a call comes to, and the draft after it. -/
theorem call_cases (call : Call) (b : Builder L) :
    (∃ command a d, call = .step command ∧ command.attempt.Gives b.draft a d ∧
      (b.call call).1 = .ok a ∧ (b.call call).2.draft = d) ∨
    (∃ command e, call = .step command ∧ (command.attempt.on b.draft).1 = .error e ∧
      (b.call call).1 = .error e ∧ (b.call call).2.draft = b.draft) ∨
    (b.call call).1 = .ok .done ∧
      ∃ options, (b.call call).2.draft = { b.draft with options } := by
  cases call with
  | step command =>
    cases h : (b.call (.step command)).1 with
    | ok a => exact .inl ⟨command, a, _, rfl, call_step_eq_ok.1 h, rfl, rfl⟩
    | error e =>
      obtain ⟨hfails, hdraft⟩ := call_step_eq_error.1 h
      exact .inr (.inl ⟨command, e, rfl, hfails, rfl, hdraft⟩)
  | options options => exact .inr (.inr ⟨rfl, options, rfl⟩)
  | error text => exact .inr (.inr ⟨rfl, b.draft.options, rfl⟩)
  | warning text => exact .inr (.inr ⟨rfl, b.draft.options, rfl⟩)

/-! ## Asking for the constraints on invalid parameters -/

/-- Whatever is logged of it, a builder is finished as its draft is. -/
theorem finish_eq (b : Builder L) : b.finish = b.draft.finish.result :=
  b.draft.finish_blind.result_eq b.log

theorem finish_eq_ok {b : Builder L} {m : Model} :
    b.finish = .ok m ↔ ∃ cs, b.draft.invalidations.result = .ok cs ∧
      m = ⟨b.draft.params, b.draft.constraints, cs, b.draft.strengths, b.draft.seeds⟩ := by
  rw [finish_eq, Draft.finish_eq_ok]

/-- The answer is what the draft gives, and only the log is another one then. -/
theorem call_invalidations (b : Builder L) :
    b.call (.step .invalidations) =
      (Answer.constraints <$> b.draft.invalidations.result.mapError .halted,
        ⟨b.log.map (Logger.hear ((reportOf b.draft.invalidations.result).map .error)),
          b.draft⟩) := by
  show (Answer.constraints <$> Step.attempt Failure.halted Draft.invalidations : Step L _) b = _
  rw [Step.map_apply, Step.attempt, b.draft.invalidations_terse.eq_telling L]
  rfl

theorem call_invalidations_eq_ok {b : Builder L} {cs : List Constraint} :
    (b.call (.step .invalidations)).1 = .ok (.constraints cs) ↔
      b.draft.invalidations.result = .ok cs := by
  rw [call_invalidations, map_eq_ok]
  simp [mapError_eq_ok]

theorem call_invalidations_eq_error {b : Builder L} {e : Failure} :
    (b.call (.step .invalidations)).1 = .error e ↔
      ∃ h, e = .halted h ∧ b.draft.invalidations.result = .error h := by
  rw [call_invalidations]
  cases b.draft.invalidations.result with
  | ok cs => simp
  | error h =>
    constructor
    · intro he
      cases he
      exact ⟨h, rfl, rfl⟩
    · rintro ⟨h', rfl, hh⟩
      cases hh
      rfl

end Builder

end TWay

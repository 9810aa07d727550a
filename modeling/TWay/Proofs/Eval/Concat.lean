import TWay.Build.Tree
import TWay.Proofs.Eval.Reading
import TWay.Proofs.Eval.Relation

/-!
# Strings of several terms

How the terms of a string are grouped makes no difference (`concatenation_ignores_grouping`). That
is so because appending is associative, with the empty text as its unit, also where a term fails or
is invalid (`appendTerm_assoc`, `appendTerm_empty`). The unit asks for one thing: an invalid text is
empty. A string of several terms sees to that itself; a single term is not wrapped, so that its
invalid text shows, and it is empty because no reading of a parameter gives anything else
(`Context.reading_emptyIfInvalid`).
-/

namespace TWay

variable {ε : Type}

/-- An invalid result has the empty text. -/
def EmptyIfInvalid (x : Except ε (Evaluated String)) : Prop :=
  ∀ v, x = .ok v → v.isValid = false → v = .invalid

theorem emptyIfInvalid_valid (s : String) :
    EmptyIfInvalid (.ok (.valid s) : Except ε (Evaluated String)) := by
  rintro v h hinvalid
  cases h
  cases hinvalid

theorem emptyIfInvalid_invalid : EmptyIfInvalid (.ok .invalid : Except ε (Evaluated String)) := by
  rintro v h -
  cases h
  rfl

theorem emptyIfInvalid_error (e : ε) :
    EmptyIfInvalid (.error e : Except ε (Evaluated String)) := by
  rintro v h -
  cases h

/-- A failure, a text or the invalid one. -/
theorem EmptyIfInvalid.cases {x : Except ε (Evaluated String)} (h : EmptyIfInvalid x) :
    (∃ e, x = .error e) ∨ (∃ s, x = .ok (.valid s)) ∨ x = .ok .invalid := by
  cases x with
  | error e => exact .inl ⟨e, rfl⟩
  | ok v =>
    obtain ⟨s, isValid⟩ := v
    cases isValid with
    | true => exact .inr (.inl ⟨s, rfl⟩)
    | false => exact .inr (.inr (congrArg _ (h _ rfl rfl)))

/-! ## Appending -/

section

variable {x y z : Except ε (Evaluated String)}

theorem appendTerm_valid (s t : String) :
    appendTerm (.ok (.valid s) : Except ε (Evaluated String)) (.ok (.valid t)) =
      .ok (.valid (s ++ t)) := rfl

/-- What comes after an invalid text is not looked at. -/
theorem appendTerm_invalid : appendTerm (.ok .invalid) y = .ok .invalid := rfl

theorem appendTerm_error (e : ε) : appendTerm (.error e) y = .error e := rfl

theorem appendTerm_valid_invalid (s : String) :
    appendTerm (.ok (.valid s) : Except ε (Evaluated String)) (.ok .invalid) = .ok .invalid := rfl

theorem appendTerm_valid_error (s : String) (e : ε) :
    appendTerm (.ok (.valid s)) (.error e) = .error e := rfl

theorem appendTerm_emptyIfInvalid (x y : Except ε (Evaluated String)) :
    EmptyIfInvalid (appendTerm x y) := by
  obtain e | ⟨s, isValid⟩ := x
  · exact emptyIfInvalid_error e
  · cases isValid with
    | false => exact emptyIfInvalid_invalid
    | true =>
      obtain e | ⟨t, isValid⟩ := y
      · exact emptyIfInvalid_error e
      · cases isValid with
        | false => exact emptyIfInvalid_invalid
        | true => exact emptyIfInvalid_valid (s ++ t)

theorem empty_appendTerm (hx : EmptyIfInvalid x) : appendTerm (.ok (.valid "")) x = x := by
  obtain ⟨e, rfl⟩ | ⟨s, rfl⟩ | rfl := hx.cases
  · rfl
  · rw [appendTerm_valid, String.empty_append]
  · rfl

theorem appendTerm_empty (hx : EmptyIfInvalid x) : appendTerm x (.ok (.valid "")) = x := by
  obtain ⟨e, rfl⟩ | ⟨s, rfl⟩ | rfl := hx.cases
  · rfl
  · rw [appendTerm_valid, String.append_empty]
  · rfl

theorem appendTerm_assoc (hx : EmptyIfInvalid x) (hy : EmptyIfInvalid y) (hz : EmptyIfInvalid z) :
    appendTerm (appendTerm x y) z = appendTerm x (appendTerm y z) := by
  obtain ⟨e, rfl⟩ | ⟨s, rfl⟩ | rfl := hx.cases
  · rfl
  · obtain ⟨e, rfl⟩ | ⟨t, rfl⟩ | rfl := hy.cases
    · rfl
    · obtain ⟨e, rfl⟩ | ⟨u, rfl⟩ | rfl := hz.cases
      · rfl
      · simp only [appendTerm_valid, String.append_assoc]
      · rfl
    · rfl
  · rfl

end

/-! ## Terms of a string -/

namespace StrExpr

variable {r : Readings ε}

theorem evalAll_cons (r : Readings ε) (term : StrExpr) (terms : List StrExpr) :
    evalAll r (term :: terms) = appendTerm (term.eval r) (evalAll r terms) := by
  rw [evalAll]
  rfl

theorem evalAll_emptyIfInvalid (r : Readings ε) (terms : List StrExpr) :
    EmptyIfInvalid (evalAll r terms) := by
  cases terms with
  | nil =>
    rw [evalAll]
    exact emptyIfInvalid_valid ""
  | cons term terms =>
    rw [evalAll_cons]
    exact appendTerm_emptyIfInvalid _ _

theorem eval_emptyIfInvalid (hr : ∀ pid, EmptyIfInvalid (r.string pid)) (e : StrExpr) :
    EmptyIfInvalid (e.eval r) := by
  cases e with
  | const s =>
    rw [eval]
    exact emptyIfInvalid_valid s
  | param pid =>
    rw [eval]
    exact hr pid
  | concat terms =>
    rw [eval]
    exact evalAll_emptyIfInvalid r terms

theorem evalAll_singleton (hr : ∀ pid, EmptyIfInvalid (r.string pid)) (e : StrExpr) :
    evalAll r [e] = e.eval r := by
  rw [evalAll_cons, evalAll]
  exact appendTerm_empty (eval_emptyIfInvalid hr e)

theorem evalAll_append (hr : ∀ pid, EmptyIfInvalid (r.string pid)) (xs ys : List StrExpr) :
    evalAll r (xs ++ ys) = appendTerm (evalAll r xs) (evalAll r ys) := by
  have hys := evalAll_emptyIfInvalid r ys
  induction xs with
  | nil =>
    rw [List.nil_append, evalAll, empty_appendTerm hys]
  | cons x xs ih =>
    rw [List.cons_append, evalAll_cons, evalAll_cons, ih, appendTerm_assoc
      (eval_emptyIfInvalid hr x) (evalAll_emptyIfInvalid r xs) hys]

theorem evalAll_of_valid {terms : List StrExpr} {texts : List String}
    (h : terms.map (eval r) = texts.map fun s => .ok (.valid s)) :
    evalAll r terms = .ok (.valid (String.join texts)) := by
  induction terms generalizing texts with
  | nil =>
    cases List.map_eq_nil_iff.1 h.symm
    rw [evalAll]
    rfl
  | cons term terms ih =>
    obtain _ | ⟨s, texts⟩ := texts
    · cases h
    · rw [List.map_cons, List.map_cons, List.cons.injEq] at h
      rw [evalAll_cons, h.1, ih h.2, appendTerm_valid, String.join_cons]

/-- The first term that does not have a valid text decides. -/
theorem evalAll_of_first (hr : ∀ pid, EmptyIfInvalid (r.string pid)) {before after : List StrExpr}
    {e : StrExpr} (hbefore : ∀ t ∈ before, ∃ s, t.eval r = .ok (.valid s))
    (he : ∀ s, e.eval r ≠ .ok (.valid s)) : evalAll r (before ++ e :: after) = e.eval r := by
  induction before with
  | nil =>
    rw [List.nil_append, evalAll_cons]
    obtain ⟨err, herr⟩ | ⟨s, hs⟩ | hinvalid := (eval_emptyIfInvalid hr e).cases
    · rw [herr, appendTerm_error]
    · exact absurd hs (he s)
    · rw [hinvalid, appendTerm_invalid]
  | cons t before ih =>
    rw [List.forall_mem_cons] at hbefore
    obtain ⟨s, hs⟩ := hbefore.1
    rw [List.cons_append, evalAll_cons, hs, ih hbefore.2]
    obtain ⟨err, herr⟩ | ⟨s', hs'⟩ | hinvalid := (eval_emptyIfInvalid hr e).cases
    · rw [herr, appendTerm_valid_error]
    · exact absurd hs' (he s')
    · rw [hinvalid, appendTerm_valid_invalid]

/-- The tree that is built for some terms. A single one is its own concatenation. -/
def joined : List StrExpr → StrExpr
  | [e] => e
  | es => .concat es

theorem eval_joined (hr : ∀ pid, EmptyIfInvalid (r.string pid)) (terms : List StrExpr) :
    (joined terms).eval r = evalAll r terms := by
  unfold joined
  split
  · exact (evalAll_singleton hr _).symm
  · rw [eval]

end StrExpr

namespace Build

variable {L : Type} [Logger L]

theorem mapM_expectString (terms : List StrExpr) :
    ((terms.map .string).mapM Node.expectString : Attempt L _ _) = .ok terms := by
  induction terms with
  | nil => rfl
  | cons term terms ih =>
    rw [List.map_cons, List.mapM_cons, ih]
    rfl

theorem concat_strings {terms : List StrExpr} (h : terms ≠ []) :
    (concat (terms.map .string) : Attempt L _ _) = .ok (.string (StrExpr.joined terms)) := by
  have hne : (terms.map Node.string).isEmpty = false := by
    rw [List.isEmpty_map]
    exact List.isEmpty_eq_false_iff.2 h
  rw [concat, hne, mapM_expectString]
  obtain _ | ⟨e, _ | ⟨e', es⟩⟩ := terms
  · cases h rfl
  · rfl
  · rfl

end Build

/-! ## Texts of parameters -/

/-- Only a string expression gives a text. -/
theorem Node.eval_eq_string {policy : Policy} {r : Readings ε} {n : Node} {v : Evaluated String} :
    n.eval policy r = .ok (.string v) ↔ ∃ e, n = .string e ∧ e.eval r = .ok v := by
  cases n <;> simp [Node.eval, map_eq_ok]

namespace Context

/-- The induction is on the computed parameters that are still to be resolved. -/
theorem resolving_emptyIfInvalid (ctx : Context) (busy : List ParamId) (pid : ParamId) :
    EmptyIfInvalid ((ctx.resolving busy).string pid) := by
  induction hn : (ctx.unresolved busy).length using Nat.strongRecOn generalizing busy pid with
  | ind n ih =>
    rw [resolving_eq]
    show EmptyIfInvalid (ctx.read .string id (ctx.entering busy) pid)
    cases hp : ctx.params[pid]? with
    | none =>
      rw [read_none hp]
      exact emptyIfInvalid_error _
    | some p =>
      cases hauto : p.isAuto with
      | false =>
        rw [read_values hp (Param.domain_of_static hauto)]
        split
        · exact emptyIfInvalid_invalid
        · split
          · exact emptyIfInvalid_valid _
          · exact emptyIfInvalid_error _
      | true =>
        rintro v hv hinvalid
        obtain ⟨inner, o, hi, hf, ⟨-, rfl⟩ | rfl⟩ :=
          (read_auto_eq_ok Kind.string_faithful hp (Param.domain_of_auto hauto)).1 hv
        · rfl
        · obtain ⟨hun, rfl⟩ := entering_eq_ok.1 hi
          obtain ⟨-, ho⟩ | ⟨node, x, -, hx, ho⟩ := fired_eq_ok.1 hf
          · cases ho
          · cases ho
            obtain ⟨e, rfl, he⟩ := Node.eval_eq_string.1 hx
            have hinner := fun q => ih _ (hn ▸ unresolved_cons_lt hun) (pid :: busy) q rfl
            exact StrExpr.eval_emptyIfInvalid hinner e v he hinvalid

theorem reading_emptyIfInvalid (ctx : Context) (pid : ParamId) :
    EmptyIfInvalid (ctx.reading.string pid) := ctx.resolving_emptyIfInvalid [] pid

/-- How terms are grouped makes no difference. A string of terms, some of which are put together
first, comes to the same as the string of all of them, be that a text, an invalid one or a failure.
A term by itself is not wrapped. The result is the texts of the terms one after the other, and where
they are not all valid that of the first term which is not: its failure, or invalid and empty. -/
theorem concatenation_ignores_grouping {L : Type} [Logger L] (ctx : Context)
    (xs ys zs : List StrExpr) (hys : ys ≠ []) :
    let built (terms : List StrExpr) : Attempt L BuildError Node :=
      Build.concat (terms.map .string)
    ∃ inner nested flat : StrExpr,
      built ys = .ok (.string inner) ∧
      built (xs ++ [inner] ++ zs) = .ok (.string nested) ∧
      built (xs ++ ys ++ zs) = .ok (.string flat) ∧
      (∀ e, ys = [e] → inner = e) ∧ (∀ e, xs ++ ys ++ zs = [e] → flat = e) ∧
      ctx.string nested = ctx.string flat ∧
      (∀ texts : List String,
        (xs ++ ys ++ zs).map ctx.string = texts.map (fun s => .ok (.valid s)) →
        ctx.string flat = .ok (.valid (String.join texts))) ∧
      ∀ before e after, xs ++ ys ++ zs = before ++ e :: after →
        (∀ t ∈ before, ∃ s, ctx.string t = .ok (.valid s)) →
        (∀ s, ctx.string e ≠ .ok (.valid s)) →
          ctx.string flat = ctx.string e ∧ ∀ v, ctx.string e = .ok v → v = ⟨"", false⟩ := by
  intro built
  have hr := ctx.reading_emptyIfInvalid
  have hjoined (terms : List StrExpr) :
      ctx.string (StrExpr.joined terms) = StrExpr.evalAll ctx.reading terms :=
    StrExpr.eval_joined hr terms
  refine ⟨.joined ys, .joined (xs ++ [.joined ys] ++ zs), .joined (xs ++ ys ++ zs),
    Build.concat_strings hys, Build.concat_strings (by simp), Build.concat_strings (by simp [hys]),
    ?_, ?_, ?_, ?_, ?_⟩
  · rintro e rfl
    rfl
  · intro e he
    rw [he]
    rfl
  · have hinner : StrExpr.evalAll ctx.reading [.joined ys] = StrExpr.evalAll ctx.reading ys :=
      (StrExpr.evalAll_singleton hr _).trans (StrExpr.eval_joined hr ys)
    rw [hjoined, hjoined, StrExpr.evalAll_append hr, StrExpr.evalAll_append hr, hinner,
      StrExpr.evalAll_append hr, StrExpr.evalAll_append hr]
  · intro texts htexts
    rw [hjoined]
    exact StrExpr.evalAll_of_valid htexts
  · intro before e after hterms hbefore he
    rw [hjoined, hterms]
    refine ⟨StrExpr.evalAll_of_first hr hbefore he, fun v hv => ?_⟩
    refine StrExpr.eval_emptyIfInvalid hr e v hv ?_
    rw [← Bool.not_eq_true]
    rintro hvalid
    obtain ⟨s, isValid⟩ := v
    cases hvalid
    exact he s hv

/-- A computed string without a rule that fires, put together with the term after it first. -/
theorem concatenation_ignores_grouping_computed :
    let ctx : Context :=
      ⟨[⟨"a", .string, .auto [⟨.bool false, .string (.const "x")⟩], false⟩], .empty, .deciding⟩
    let ys : List StrExpr := [.param 0, .const "c"]
    let built (terms : List StrExpr) : Attempt MessageLog BuildError Node :=
      Build.concat (terms.map .string)
    ys ≠ [] ∧ ∃ inner nested flat : StrExpr,
      built ys = .ok (.string inner) ∧
      built [.const "b", inner] = .ok (.string nested) ∧
      built [.const "b", .param 0, .const "c"] = .ok (.string flat) ∧
      ctx.string nested = ctx.string flat ∧ ctx.string flat = .ok ⟨"", false⟩ := by
  intro ctx ys built
  have hys : ys ≠ [] := by simp [ys]
  have hinvalid : ctx.string (.param 0) = .ok .invalid := by
    rw [string, reading_eq, StrExpr.eval]
    show ctx.read .string id (ctx.entering []) 0 = .ok .invalid
    rw [read_auto rfl rfl, entering_of_not_mem rfl rfl (by simp), ok_bind, resolving_eq]
    rfl
  obtain ⟨inner, nested, flat, hinner, hnested, hflat, -, -, hsame, -, hfirst⟩ :=
    concatenation_ignores_grouping (L := MessageLog) ctx [.const "b"] ys [] hys
  have hb : ctx.string (.const "b") = .ok (.valid "b") := by
    rw [string, StrExpr.eval]
  obtain ⟨hflat', -⟩ := hfirst [.const "b"] (.param 0) [.const "c"] rfl
    (by simpa using ⟨"b", hb⟩) (fun s h => by cases hinvalid.symm.trans h)
  exact ⟨hys, inner, nested, flat, hinner, hnested, hflat, hsame, hflat'.trans hinvalid⟩

end Context

end TWay

import TWay.Proofs.Build.Attempt

/-!
# What is read from a draft

A name that is found is that of a parameter, and stays so when more parameters are declared. Reading
it gives the tree for the parameter, a spelling is looked up among its values, and a name in a
strength stands for parameters that are not computed.
-/

namespace TWay

/-- A search finds the first entry that there is. -/
theorem findIdx?_eq_some_iff_first {α : Type} {f : α → Bool} {xs : List α} {i : Nat} :
    xs.findIdx? f = some i ↔
      (∃ x, xs[i]? = some x ∧ f x = true) ∧ ∀ j < i, ∀ x, xs[j]? = some x → f x = false := by
  rw [List.findIdx?_eq_some_iff_getElem]
  constructor
  · rintro ⟨hlt, hf, hfirst⟩
    refine ⟨⟨xs[i], List.getElem?_eq_getElem hlt, hf⟩, fun j hj x hx => ?_⟩
    obtain ⟨_, rfl⟩ := List.getElem?_eq_some_iff.1 hx
    simpa using hfirst j hj
  · rintro ⟨⟨x, hx, hf⟩, hfirst⟩
    obtain ⟨hlt, rfl⟩ := List.getElem?_eq_some_iff.1 hx
    refine ⟨hlt, hf, fun j hj => ?_⟩
    have hjlt : j < xs.length := Nat.lt_trans hj hlt
    simp [hfirst j hj _ (List.getElem?_eq_getElem hjlt)]

/-! ## Names and spellings -/

namespace Params

variable {params params' : Params} {name : String} {pid : ParamId} {p : Param}

/-- A name that is found is that of a parameter. -/
theorem exists_of_idOf? (h : params.idOf? name = some pid) : ∃ p, params[pid]? = some p := by
  obtain ⟨hlt, -⟩ := List.findIdx?_eq_some_iff_getElem.1 h
  exact ⟨_, List.getElem?_eq_getElem hlt⟩

theorem idOf?_eq_none_iff : params.idOf? name = none ↔ name ∉ params.map Param.name := by
  simp [idOf?, List.findIdx?_eq_none_iff]

/-- Where no two parameters share a name, each is found by its own. -/
theorem idOf?_eq_some_iff (h : (params.map Param.name).Nodup) :
    params.idOf? name = some pid ↔ ∃ p, params[pid]? = some p ∧ p.name = name := by
  rw [idOf?, findIdx?_eq_some_iff_first]
  simp only [beq_iff_eq, beq_eq_false_iff_ne]
  refine ⟨fun hfirst => hfirst.1, fun hp => ⟨hp, fun i hi q hq hname => ?_⟩⟩
  obtain ⟨p, hp, rfl⟩ := hp
  have hlt : i < (params.map Param.name).length := by
    simpa using (List.getElem?_eq_some_iff.1 hq).1
  have hsame : (params.map Param.name)[i]? = (params.map Param.name)[pid]? := by
    rw [List.getElem?_map, List.getElem?_map, hq, hp, Option.map_some, Option.map_some, hname]
  exact Nat.ne_of_lt hi ((List.getElem?_inj hlt h).1 hsame)

/-- A parameter that is found stays the first of its name. -/
theorem idOf?_mono (hle : params <+: params') (h : params.idOf? name = some pid) :
    params'.idOf? name = some pid := by
  obtain ⟨more, rfl⟩ := hle
  unfold idOf? at h ⊢
  rw [List.findIdx?_append, h, Option.some_or]

/-- A parameter of a new name is found behind the others. -/
theorem idOf?_append_new (h : params.idOf? p.name = none) :
    (params ++ [p]).idOf? p.name = some params.length := by
  unfold idOf? at h ⊢
  rw [List.findIdx?_append, h, Option.none_or]
  simp

end Params

/-- The place is that of the first value with this spelling. -/
structure Param.FirstSpelled (p : Param) (text : String) (vid : ValueId) : Prop where
  here : ∃ v, p.values[vid]? = some v ∧ v.text = text
  first : ∀ earlier < vid, ∀ v, p.values[earlier]? = some v → v.text ≠ text

theorem Param.valueId?_eq_some_iff {p : Param} {text : String} {vid : ValueId} :
    p.valueId? text = some vid ↔ p.FirstSpelled text vid := by
  rw [valueId?, findIdx?_eq_some_iff_first]
  simp only [beq_iff_eq, beq_eq_false_iff_ne]
  exact ⟨fun h => ⟨h.1, h.2⟩, fun h => ⟨h.here, h.first⟩⟩

theorem Param.exists_firstSpelled {p : Param} {text : String} :
    (∃ vid, p.FirstSpelled text vid) ↔ text ∈ p.values.map DomainValue.text := by
  simp only [← valueId?_eq_some_iff, ← Option.isSome_iff_exists]
  simp [valueId?, List.findIdx?_isSome]

/-! ## Lookups -/

namespace Draft

variable {d : Draft} {name : String} {pid : ParamId}

theorem reference_eq_ok {n : Node} :
    (d.reference name).result = .ok n ↔
      ∃ pid p, d.params.idOf? name = some pid ∧ d.params[pid]? = some p ∧
        n = p.type.reference pid := by
  unfold reference
  cases hid : d.params.idOf? name with
  | none => simp
  | some pid =>
    obtain ⟨p, hp⟩ := Params.exists_of_idOf? hid
    simp [hp, eq_comm (a := n)]

theorem marker?_eq_ok {c : Option Constraint} :
    (d.marker? name).result = .ok c ↔ c = (d.params.idOf? name).map .invalid := by
  have hresult : (d.marker? name).result = .ok ((d.params.idOf? name).map .invalid) := by
    unfold marker?
    cases d.params.idOf? name <;> rfl
  rw [hresult, Except.ok.injEq, eq_comm]

/-- A choice is of a parameter with a list of values, by a spelling that is not empty. -/
theorem choice?_eq_ok_some {value : Node} {c : Choice} :
    (d.choice? name value).result = .ok (some c) ↔
      value.text ≠ "" ∧ ∃ p, d.params.idOf? name = some c.pid ∧ d.params[c.pid]? = some p ∧
        p.isAuto = false ∧ p.FirstSpelled value.text c.vid := by
  unfold choice?
  dsimp only
  by_cases htext : value.text = ""
  · simp [htext]
  · rw [if_neg (by simpa [String.isEmpty_iff] using htext)]
    cases hid : d.params.idOf? name with
    | none => simp
    | some pid =>
      obtain ⟨p, hp⟩ := Params.exists_of_idOf? hid
      have hhere : (∃ q, some pid = some c.pid ∧ d.params[c.pid]? = some q ∧ q.isAuto = false ∧
            q.FirstSpelled value.text c.vid) ↔
          pid = c.pid ∧ p.isAuto = false ∧ p.valueId? value.text = some c.vid := by
        rw [Param.valueId?_eq_some_iff]
        constructor
        · rintro ⟨q, hpid, hq, hstatic, hfirst⟩
          cases hpid
          cases hp.symm.trans hq
          exact ⟨rfl, hstatic, hfirst⟩
        · rintro ⟨rfl, hstatic, hfirst⟩
          exact ⟨p, rfl, hp, hstatic, hfirst⟩
      rw [hhere]
      cases hauto : p.isAuto with
      | true => simp [hp, hauto]
      | false =>
        cases hvid : p.valueId? value.text with
        | none => simp [hp, hauto, hvid]
        | some vid => cases c; simp [hp, hauto, hvid, htext]

theorem mem_eligible :
    pid ∈ d.eligible ↔ ∃ p, d.params[pid]? = some p ∧ p.aux = false ∧ p.isAuto = false := by
  simp only [eligible, List.mem_filter, List.mem_range, Option.any_eq_true, Param.isCoverable,
    Bool.and_eq_true, Bool.not_eq_true']
  constructor
  · exact fun h => h.2
  · rintro ⟨p, hp, hcoverable⟩
    exact ⟨(List.getElem?_eq_some_iff.1 hp).1, p, hp, hcoverable⟩

/-- A name in a strength stands for all parameters that take part in the default coverage, or for
one that is not computed. -/
theorem named_eq_ok {pids : List ParamId} :
    (d.named name).result = .ok pids ↔
      name = "default" ∧ pids = d.eligible ∨
        name ≠ "default" ∧ ∃ pid p, d.params.idOf? name = some pid ∧ d.params[pid]? = some p ∧
          p.isAuto = false ∧ pids = [pid] := by
  unfold named
  by_cases hdefault : name = "default"
  · simp [hdefault, eq_comm (a := pids)]
  · rw [if_neg (by simpa using hdefault)]
    cases hid : d.params.idOf? name with
    | none => simp [hdefault]
    | some pid =>
      obtain ⟨p, hp⟩ := Params.exists_of_idOf? hid
      cases hauto : p.isAuto <;> simp [hdefault, hp, hauto, eq_comm (a := pids)]

end Draft

end TWay

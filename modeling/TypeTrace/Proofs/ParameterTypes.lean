import TypeTrace.Proofs.GraphFold
import TypeTrace.Proofs.SlotHistory

/-!
# The types of parameters

What a call graph says about its functions after any links and calls were folded in.
Apart from the reads and the calls that are filed, only the slots of parameters move.
A parameter has the type that the recorded calls of its function show, and the links
that refer to it settle what these leave open.

Main results:

* `refineFirst_eq_map`: among distinct names a refinement reaches the one of its name;
* `params_effect`, `params_foldl_effect`: what steps do to the parameters of a function;
* `exists_function?_run`: a function before any step and what the steps make of it;
* `run_skeleton`: the functions of a call graph and the slots of their parameters.
-/

namespace TypeTrace

/-! ## Filling parameters -/

namespace Param

/-- Fills the slot of a parameter from types, one after the other. -/
def filledFrom (p : Param) (types : List Ty) : Param :=
  { p with slot := types.foldl (fun s t => (s.refine t).1) p.slot }

@[simp]
theorem filledFrom_nil (p : Param) : p.filledFrom [] = p :=
  rfl

@[simp]
theorem name_filledFrom (p : Param) (types : List Ty) : (p.filledFrom types).name = p.name :=
  rfl

theorem filledFrom_append (p : Param) (types types' : List Ty) :
    p.filledFrom (types ++ types') = (p.filledFrom types).filledFrom types' := by
  unfold filledFrom
  rw [List.foldl_append]

theorem slot_filledFrom (p : Param) (types : List Ty) :
    (p.filledFrom types).slot = p.slot.settledBy types :=
  Slot.foldl_refine p.slot types

/-- Filling parameters keeps their names. -/
theorem map_name_filledFrom (ps : List Param) (types : Param → List Ty) :
    (ps.map fun p => p.filledFrom (types p)).map Param.name = ps.map Param.name := by
  rw [List.map_map]
  rfl

/-- Among parameters with distinct names a refinement reaches the one of its name. -/
theorem refineFirst_eq_map {ps : List Param} (h : (ps.map Param.name).Nodup) (name : String)
    (t : Ty) :
    refineFirst name t ps = ps.map fun p => if p.name = name then p.filledFrom [t] else p := by
  induction ps with
  | nil => rfl
  | cons p ps ih =>
      rw [List.map_cons, List.nodup_cons] at h
      rw [refineFirst, List.map_cons]
      by_cases hname : p.name = name
      · rw [if_pos hname, if_pos hname]
        have hothers : (ps.map fun q => if q.name = name then q.filledFrom [t] else q) = ps := by
          refine (List.map_congr_left ?_).trans (List.map_id ps)
          intro q hq
          have hne : q.name ≠ name := by
            rintro rfl
            rw [hname] at h
            exact h.1 (List.mem_map.2 ⟨q, hq, rfl⟩)
          rw [if_neg hne]
          rfl
        rw [hothers]
        rfl
      · rw [if_neg hname, if_neg hname, ih h.2]

theorem map_name_ofSignatures (signatures : List Signature) :
    (ofSignatures signatures).map name =
      firstSeen ((signatures.flatMap (·.params)).map (·.1)) := by
  unfold ofSignatures
  rw [List.map_map]
  exact List.map_id _

theorem slot_of_mem_ofSignatures {signatures : List Signature} {p : Param}
    (h : p ∈ ofSignatures signatures) :
    p.slot = .ofTy (.join (observedTypes (signatures.flatMap (·.params)) p.name)) := by
  rcases List.mem_map.1 h with ⟨name, -, rfl⟩
  rfl

end Param

/-! ## What steps do to parameters -/

/-- Filing a reading changes nothing but the readings. -/
theorem Function.addRead_keeps (f : Function) (read : AttributeRead) :
    (f.addRead read).id = f.id ∧ (f.addRead read).params = f.params ∧
      (f.addRead read).ret = f.ret ∧ (f.addRead read).location = f.location := by
  unfold addRead
  split <;> exact ⟨rfl, rfl, rfl, rfl⟩

namespace GraphStep

/-- The readings that a link is filed as leave the parameters as they are. -/
theorem params_addRead (index : SymbolIndex) (id : String) (s : GraphStep) (f : Function) :
    ((s.readBy? index id).elim f f.addRead).params = f.params := by
  cases s.readBy? index id with
  | none => rfl
  | some read => exact (f.addRead_keeps read).2.1

/-- A step keeps all of a function but its parameters and what is filed with it. -/
theorem effect_keeps (index : SymbolIndex) (id : String) (s : GraphStep) (f : Function) :
    (s.effect index id f).id = f.id ∧ (s.effect index id f).ret = f.ret ∧
      (s.effect index id f).location = f.location := by
  cases s with
  | link r d =>
      unfold effect
      dsimp only
      cases (link r d).readBy? index id with
      | none => split <;> exact ⟨rfl, rfl, rfl⟩
      | some read =>
          rcases f.addRead_keeps read with ⟨hid, -, hret, hlocation⟩
          split <;> exact ⟨hid, hret, hlocation⟩
  | call c =>
      unfold effect
      dsimp only
      cases (call c).edgeFrom? index id <;> exact ⟨rfl, rfl, rfl⟩

/-- A step fills the parameter that it tells about and leaves all others alone. -/
theorem params_effect {f : Function} (h : (f.params.map Param.name).Nodup) (index : SymbolIndex)
    (id : String) (s : GraphStep) :
    (s.effect index id f).params =
      f.params.map fun p => p.filledFrom (s.typeFor? id p.name).toList := by
  have hsame : (f.params.map fun p => p.filledFrom []) = f.params := List.map_id _
  cases s with
  | link r d =>
      have hread := params_addRead index id (link r d) f
      unfold effect
      dsimp only
      by_cases hlink : d.kind = .param ∧ r.refScope = some id
      · rw [if_pos hlink]
        unfold Function.refineParam
        dsimp only
        rw [hread, Param.refineFirst_eq_map h]
        apply List.map_congr_left
        intro p _
        by_cases hname : p.name = d.name
        · simp [typeFor?, Reference.resolvedType, hlink, hname]
        · simp [typeFor?, hlink, hname, Ne.symm hname]
      · rw [if_neg hlink, hread]
        refine hsame.symm.trans (List.map_congr_left ?_)
        intro p _
        have hnone : (link r d).typeFor? id p.name = none := by
          unfold typeFor?
          exact if_neg fun h => hlink ⟨h.1, h.2.2⟩
        rw [hnone]
        rfl
  | call c =>
      have hcall : ((call c).effect index id f).params = f.params := by
        unfold effect
        dsimp only
        cases (call c).edgeFrom? index id <;> rfl
      rw [hcall]
      exact hsame.symm

/-- A sequence of steps fills each parameter from the types that the steps tell about
it, in order, and keeps all else but what is filed. -/
theorem foldl_effect {f : Function} (h : (f.params.map Param.name).Nodup) (index : SymbolIndex)
    (id : String) (steps : List GraphStep) :
    let last := steps.foldl (fun f s => s.effect index id f) f
    last.id = f.id ∧ last.ret = f.ret ∧ last.location = f.location ∧
      last.params =
        f.params.map fun p => p.filledFrom (steps.filterMap (·.typeFor? id p.name)) := by
  induction steps generalizing f with
  | nil => exact ⟨rfl, rfl, rfl, (List.map_id _).symm⟩
  | cons s steps ih =>
      rcases s.effect_keeps index id f with ⟨hid, hret, hlocation⟩
      have hparams := params_effect h index id s
      have hnodup : ((s.effect index id f).params.map Param.name).Nodup := by
        rw [hparams, Param.map_name_filledFrom]
        exact h
      rcases ih hnodup with ⟨hid', hret', hlocation', hparams'⟩
      refine ⟨hid'.trans hid, hret'.trans hret, hlocation'.trans hlocation, ?_⟩
      rw [List.foldl_cons, hparams', hparams, List.map_map]
      apply List.map_congr_left
      intro p _
      rw [filterMap_cons_eq_append, Param.filledFrom_append]
      rfl

end GraphStep

/-! ## The functions of a call graph -/

/-- What the recorded calls of a function show about a parameter: the union of the types
that they have under its name, as far as these are answers. -/
def SymbolIndex.signatureSlot (index : SymbolIndex) (id name : String) : Slot :=
  let signatures := (index.signatures.find? id).getD []
  let answers := signatures.flatMap fun s =>
    s.params.filter fun o => o.1 = name ∧ o.2.isPlaceholder = false
  .ofTy (.join (answers.map (·.2)))

/-- The types that a parameter was met with are the answers under its name. -/
theorem Param.observedTypes_eq (signatures : List Signature) (name : String) :
    observedTypes (signatures.flatMap (·.params)) name =
      (signatures.flatMap fun s =>
        s.params.filter fun o => o.1 = name ∧ o.2.isPlaceholder = false).map (·.2) := by
  unfold observedTypes
  rw [← List.filter_flatMap, ← List.filterMap_eq_map, List.filterMap_filter]
  congr 1
  funext o
  simp only [decide_eq_true_eq, Bool.not_eq_true, Function.comp_apply]

namespace CallGraph

/-- A function that is there before any step has its id, distinct parameters, and the
slots that the recorded calls show. -/
theorem of_function?_start {index : SymbolIndex} {moduleId id : String} {f : Function}
    (h : (start index moduleId).function? id = some f) :
    f.id = id ∧ (f.params.map Param.name).Nodup ∧
      ∀ p ∈ f.params, p.slot = index.signatureSlot id p.name := by
  rw [function?_start] at h
  by_cases hmodule : id = moduleId
  · rw [if_pos hmodule] at h
    rcases Option.some.inj h with rfl
    exact ⟨hmodule.symm, List.nodup_nil, fun p hp => absurd hp List.not_mem_nil⟩
  · rw [if_neg hmodule] at h
    split at h
    · rcases Option.some.inj h with rfl
      refine ⟨rfl, ?_, fun p hp => ?_⟩
      · dsimp only [functionOf]
        rw [Param.map_name_ofSignatures]
        exact nodup_firstSeen _
      · rw [Param.slot_of_mem_ofSignatures hp, Param.observedTypes_eq]
        rfl
    · exact absurd h (by simp)

/-- The ids of the functions are fixed before any step. -/
theorem mem_keys_run (index : SymbolIndex) (moduleId : String) (steps : List GraphStep)
    (id : String) :
    id ∈ ((start index moduleId).run steps).functions.keys ↔
      id = moduleId ∨ ∃ d, index.defs.find? id = some d ∧ d.kind = .functionDef := by
  have hrun := (start index moduleId).function?_run steps id
  rw [SortedMap.mem_keys_iff, ← SymbolIndex.mem_functionIds]
  unfold function? at hrun
  rw [hrun, Option.isSome_map]
  have hstart := function?_start index moduleId id
  unfold function? at hstart
  rw [hstart]
  by_cases hmodule : id = moduleId
  · simp [hmodule]
  · by_cases hid : id ∈ index.functionIds <;> simp [hmodule, hid]

/-- A function that is there before any step is followed through the steps. Its parameters
are filled from the types that the steps tell about them, and all else but what is filed
stays. -/
theorem exists_function?_run {index : SymbolIndex} {moduleId id : String} {f₀ : Function}
    (h : (start index moduleId).function? id = some f₀) (steps : List GraphStep) :
    ∃ f, ((start index moduleId).run steps).function? id = some f ∧ f.id = f₀.id ∧
      f.ret = f₀.ret ∧ f.location = f₀.location ∧
      f.params = f₀.params.map fun p =>
        p.filledFrom (steps.filterMap (·.typeFor? id p.name)) := by
  have hrun := (start index moduleId).function?_run steps id
  rw [h] at hrun
  have heffect := GraphStep.foldl_effect (of_function?_start h).2.1
    (start index moduleId).index id steps
  exact ⟨_, hrun, heffect⟩

/-- No step makes a function. -/
theorem exists_function?_start {index : SymbolIndex} {moduleId id : String} {f : Function}
    {steps : List GraphStep} (h : ((start index moduleId).run steps).function? id = some f) :
    ∃ f₀, (start index moduleId).function? id = some f₀ := by
  have hrun := (start index moduleId).function?_run steps id
  rw [h] at hrun
  rcases Option.map_eq_some_iff.1 hrun.symm with ⟨f₀, hstart, -⟩
  exact ⟨f₀, hstart⟩

/-- The functions of a call graph after any links and calls were folded in. There is
one for each definition of a function and one for the top level of the module, which
has nothing but reads and calls. Each function keeps its id, its parameters in their
order, its return type and its place. The slot of a parameter is what the recorded
calls show about it, settled by the types that the links to it tell, in order. -/
theorem run_skeleton (index : SymbolIndex) (moduleId : String) (steps : List GraphStep) :
    let g := (start index moduleId).run steps
    (∀ id, id ∈ g.functions.keys ↔
        id = moduleId ∨ ∃ d, index.defs.find? id = some d ∧ d.kind = .functionDef) ∧
      (∃ f, g.function? moduleId = some f ∧
        f.params = [] ∧ f.ret = none ∧ f.location = none) ∧
      ∀ id f, g.function? id = some f →
        f.id = id ∧
          (∃ f₀, (start index moduleId).function? id = some f₀ ∧
            f.params.map Param.name = f₀.params.map Param.name ∧ f.ret = f₀.ret ∧
              f.location = f₀.location) ∧
          (f.params.map Param.name).Nodup ∧
          ∀ p ∈ f.params,
            p.slot =
              (index.signatureSlot id p.name).settledBy
                (steps.filterMap (·.typeFor? id p.name)) := by
  intro g
  refine ⟨mem_keys_run index moduleId steps, ?_, ?_⟩
  · have hstart := function?_start index moduleId moduleId
    rw [if_pos rfl] at hstart
    rcases exists_function?_run hstart steps with ⟨f, hf, -, hret, hlocation, hparams⟩
    exact ⟨f, hf, hparams, hret, hlocation⟩
  · intro id f hf
    rcases exists_function?_start hf with ⟨f₀, hstart⟩
    rcases of_function?_start hstart with ⟨hid, hnodup, hslots⟩
    rcases exists_function?_run hstart steps with ⟨f', hf', hid', hret, hlocation, hparams⟩
    rw [hf] at hf'
    rcases Option.some.inj hf' with rfl
    have hnames : f.params.map Param.name = f₀.params.map Param.name := by
      rw [hparams, Param.map_name_filledFrom]
    refine ⟨hid'.trans hid, ⟨f₀, hstart, hnames, hret, hlocation⟩, ?_, ?_⟩
    · rw [hnames]
      exact hnodup
    · intro p hp
      rw [hparams] at hp
      rcases List.mem_map.1 hp with ⟨p₀, hp₀, rfl⟩
      rw [Param.slot_filledFrom, hslots p₀ hp₀, Param.name_filledFrom]

/-- A function with two recorded calls. They show a type for its parameter `y` alone, and
only one of them does. The links that refer to `x` tell `Any` and then two types, the one
to `y` tells another type than the calls, and the one to `z` has no type. -/
def openParameters : SymbolIndex × List GraphStep :=
  let use (name : String) (t : Option Ty) : GraphStep :=
    .link { Reference.ofUse name .name "m.f" ⟨2, 4⟩ with type := t } ⟨name, .param, "m.f", none⟩
  ({ SymbolIndex.empty with
      envs := SortedMap.empty.insert "m.f" { Env.ofScope "m.f" with ret := some (.named "bool" []) }
      defs := SortedMap.empty.insert "m.f" ⟨"f", .functionDef, "m", none⟩
      locs := SortedMap.empty.insert "m.f" [⟨"m.f", ⟨1, 4⟩⟩]
      signatures := SortedMap.empty.insert "m.f"
        [⟨[("x", .nothing), ("y", .named "str" []), ("z", .unknown)]⟩,
          ⟨[("x", .unknown), ("y", .unknown)]⟩] },
    [use "x" none, use "y" (some (.named "int" [])), use "x" (some (.named "int" [])), use "z" none,
      use "x" (some (.named "bytes" []))])

/-- The recorded calls settle `y`, the first link that tells a definite type settles `x`,
and `z` stays open. -/
theorem run_openParameters :
    ∃ f, ((start openParameters.1 "m").run openParameters.2).function? "m.f" = some f ∧
      f.params.map Param.name = ["x", "y", "z"] ∧ f.ret = some (.named "bool" []) ∧
      f.location = some ⟨1, 4⟩ ∧
      ∀ p ∈ f.params,
        (p.name = "x" → p.slot = .concrete (.named "int" [])) ∧
          (p.name = "y" → p.slot = .concrete (.named "str" [])) ∧
          (p.name = "z" → p.slot = .inferredAny) := by
  have hsome :
      (((start openParameters.1 "m").run openParameters.2).function? "m.f").isSome = true := by
    decide +kernel
  rcases Option.isSome_iff_exists.1 hsome with ⟨f, hf⟩
  obtain ⟨-, ⟨f₀, hf₀, hnames, hret, hlocation⟩, -, hslots⟩ :=
    (run_skeleton openParameters.1 "m" openParameters.2).2.2 "m.f" f hf
  have hstart : ((start openParameters.1 "m").function? "m.f").map
      (fun f => (f.params.map Param.name, f.ret, f.location)) =
        some (["x", "y", "z"], some (.named "bool" []), some ⟨1, 4⟩) := by
    decide +kernel
  rw [hf₀] at hstart
  have hfixed := Option.some.inj hstart
  refine ⟨f, hf, hnames.trans (congrArg (·.1) hfixed), hret.trans (congrArg (·.2.1) hfixed),
    hlocation.trans (congrArg (·.2.2) hfixed), fun p hp => ⟨?_, ?_, ?_⟩⟩
  all_goals
    intro hname
    rw [hslots p hp, hname]
    decide +kernel

end CallGraph

end TypeTrace

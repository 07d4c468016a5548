import TypeTrace.Proofs.Filing

/-!
# Steps in another order

How a step changes a function depends on the index and on that function alone, and links
and calls change different parts of it. So the order of two steps matters only if both are
links, or both are calls, of one scope. Sequences of steps that agree scope by scope, in
their links and in their calls, lead to the same call graph.

Main results:

* `effect_link_call`: links and calls change a function independently of each other;
* `foldl_effect_eq_apart`: what steps do to a function, the links of its scope first and
  then the calls;
* `run_reordered`: sequences of steps that agree scope by scope give one call graph.
-/

namespace TypeTrace

namespace GraphStep

/-! ## One function -/

/-- A link and a call change different parts of a function. -/
theorem effect_link_call (index : SymbolIndex) (id : String) (r : Reference) (d : Definition)
    (c : Funcall) (f : Function) :
    (link r d).effect index id ((call c).effect index id f) =
      (call c).effect index id ((link r d).effect index id f) := by
  have hread : ∀ (f : Function) (edge : Call) (read : AttributeRead),
      (f.addCall edge).addRead read = (f.addRead read).addCall edge := by
    intro f edge read
    unfold Function.addRead
    split <;> rfl
  unfold effect
  dsimp only
  cases (call c).edgeFrom? index id with
  | none => rfl
  | some edge =>
      cases (link r d).readBy? index id with
      | none => split <;> rfl
      | some read =>
          simp only [Option.elim_some, hread]
          split <;> rfl

/-- Several links and a call change different parts of a function. -/
theorem effect_links_call (index : SymbolIndex) (id : String)
    (links : List (Reference × Definition)) (c : Funcall) (f : Function) :
    links.foldl (fun f l => (link l.1 l.2).effect index id f) ((call c).effect index id f) =
      (call c).effect index id
        (links.foldl (fun f l => (link l.1 l.2).effect index id f) f) := by
  induction links generalizing f with
  | nil => rfl
  | cons l links ih => rw [List.foldl_cons, effect_link_call, ih, List.foldl_cons]

/-- What steps do to a function is what the links of its scope do to it and then the calls
that are made in it. -/
theorem foldl_effect_eq_apart (index : SymbolIndex) (id : String) (steps : List GraphStep)
    (f : Function) :
    steps.foldl (fun f s => s.effect index id f) f =
      (callsFrom id steps).foldl (fun f c => (call c).effect index id f)
        ((linksTo id steps).foldl (fun f l => (link l.1 l.2).effect index id f) f) := by
  induction steps generalizing f with
  | nil => rfl
  | cons s steps ih =>
      rw [List.foldl_cons, ih]
      unfold linksTo callsFrom
      by_cases hscope : s.scope? = some id
      · cases s with
        | link r d =>
            have hlink : (link r d).linkTo? id = some (r, d) := if_pos hscope
            have hcall : (link r d).callFrom? id = none := rfl
            rw [List.filterMap_cons_some hlink, List.filterMap_cons_none hcall, List.foldl_cons]
        | call c =>
            have hlink : (call c).linkTo? id = none := rfl
            have hcall : (call c).callFrom? id = some c := if_pos (Option.some.inj hscope)
            -- The call moves past the links of the steps that follow it.
            rw [List.filterMap_cons_none hlink, List.filterMap_cons_some hcall, List.foldl_cons,
              effect_links_call]
      · rcases linkTo?_callFrom?_eq_none hscope with ⟨hlink, hcall⟩
        rw [effect_eq_self hscope, List.filterMap_cons_none hlink, List.filterMap_cons_none hcall]

/-! ## Agreement scope by scope -/

/-- Sequences of steps that have the same links and the same calls for every scope. Links
that refer to no scope do not count. -/
def AgreeByScope (steps steps' : List GraphStep) : Prop :=
  ∀ scope, linksTo scope steps = linksTo scope steps' ∧
    callsFrom scope steps = callsFrom scope steps'

/-- Steps whose order does not matter: a link and a call, or steps of different scopes. -/
def Independent (s s' : GraphStep) : Prop :=
  match s, s' with
  | link .., call _ | call _, link .. => True
  | _, _ => s.scope? ≠ s'.scope?

/-- Of two independent steps one at most is a link to a scope, and one at most is a call
from it. -/
theorem Independent.eq_none {s s' : GraphStep} (h : Independent s s') (scope : String) :
    (s.linkTo? scope = none ∨ s'.linkTo? scope = none) ∧
      (s.callFrom? scope = none ∨ s'.callFrom? scope = none) := by
  by_cases hscopes : s.scope? = s'.scope?
  · cases s with
    | link r d =>
        cases s' with
        | link r' d' => exact absurd hscopes h
        | call c => exact ⟨.inr rfl, .inl rfl⟩
    | call c =>
        cases s' with
        | link r d => exact ⟨.inl rfl, .inr rfl⟩
        | call c' => exact absurd hscopes h
  · by_cases hscope : s.scope? = some scope
    · have hscope' : s'.scope? ≠ some scope := fun heq => hscopes (hscope.trans heq.symm)
      rcases linkTo?_callFrom?_eq_none hscope' with ⟨hlink, hcall⟩
      exact ⟨.inr hlink, .inr hcall⟩
    · rcases linkTo?_callFrom?_eq_none hscope with ⟨hlink, hcall⟩
      exact ⟨.inl hlink, .inl hcall⟩

/-- Two neighbours may change places if one of them is passed over. -/
theorem filterMap_swap {α β : Type} {f : α → Option β} {a b : α} (h : f a = none ∨ f b = none)
    (before after : List α) :
    (before ++ a :: b :: after).filterMap f = (before ++ b :: a :: after).filterMap f := by
  rw [List.filterMap_append, List.filterMap_append]
  rcases h with h | h <;> simp only [List.filterMap_cons, h]

/-- Independent steps that follow each other may change places. -/
theorem agreeByScope_swap {s s' : GraphStep} (h : Independent s s')
    (before after : List GraphStep) :
    AgreeByScope (before ++ s :: s' :: after) (before ++ s' :: s :: after) := by
  intro scope
  rcases h.eq_none scope with ⟨hlinks, hcalls⟩
  exact ⟨filterMap_swap hlinks before after, filterMap_swap hcalls before after⟩

/-- A link that refers to no scope may be left out. -/
theorem agreeByScope_drop {s : GraphStep} (h : s.scope? = none) (before after : List GraphStep) :
    AgreeByScope (before ++ s :: after) (before ++ after) := by
  intro scope
  have hscope : s.scope? ≠ some scope := by
    simp [h]
  rcases linkTo?_callFrom?_eq_none hscope with ⟨hlink, hcall⟩
  unfold linksTo callsFrom
  simp only [List.filterMap_append, List.filterMap_cons, hlink, hcall, and_self]

end GraphStep

/-! ## The whole call graph -/

namespace CallGraph

open GraphStep

theorem index_run (g : CallGraph) (steps : List GraphStep) : (g.run steps).index = g.index := by
  induction steps generalizing g with
  | nil => rfl
  | cons s steps ih => exact (ih (g.step s)).trans (g.index_step s)

/-- From every call graph, steps that agree scope by scope lead to the same one. -/
theorem run_eq_of_agreeByScope (g : CallGraph) {steps steps' : List GraphStep}
    (h : AgreeByScope steps steps') : g.run steps = g.run steps' := by
  refine ext_function? ?_ fun id => ?_
  · rw [index_run, index_run]
  · rcases h id with ⟨hlinks, hcalls⟩
    rw [function?_run, function?_run]
    congr 1
    funext f
    rw [foldl_effect_eq_apart, foldl_effect_eq_apart, hlinks, hcalls]

/-- Sequences of steps that have the same links and the same calls for every scope lead
from the start to the same call graph. So steps that are independent of each other may
change places wherever they stand, and a link that refers to no scope may be put anywhere
or left out. -/
theorem run_reordered (index : SymbolIndex) (moduleId : String) :
    let g := start index moduleId
    (∀ steps steps', AgreeByScope steps steps' → g.run steps = g.run steps') ∧
      (∀ s s', Independent s s' → ∀ before after,
        g.run (before ++ s :: s' :: after) = g.run (before ++ s' :: s :: after)) ∧
      ∀ s : GraphStep, s.scope? = none → ∀ before after,
        g.run (before ++ s :: after) = g.run (before ++ after) := by
  intro g
  refine ⟨fun steps steps' h => g.run_eq_of_agreeByScope h, ?_, ?_⟩
  · intro s s' h before after
    exact g.run_eq_of_agreeByScope (agreeByScope_swap h before after)
  · intro s h before after
    exact g.run_eq_of_agreeByScope (agreeByScope_drop h before after)

/-- Two functions `m.f` and `m.g` with a parameter `x` each, and two sequences of steps.
Each function reads an attribute of its parameter, which also tells the type of the
parameter, and `m.f` calls `m.g`. The second sequence takes the functions in the other
order, the call before the read, and it has one more link, which refers to no scope. -/
def shuffledSteps : SymbolIndex × List GraphStep × List GraphStep :=
  let env (scope : String) : Env := (Env.ofScope scope).bind ⟨"x", .param, scope, none⟩
  let read (scope : Option String) (t : Ty) : GraphStep :=
    .link
      { Reference.ofUse "x" .attr "m" ⟨2, 4⟩ with
        refScope := scope, target := some "x", type := some t }
      ⟨"x", .param, "m", some t⟩
  let call : GraphStep := .call ⟨"g", "m.f", "m.g", ⟨3, 4⟩, ["x"], none⟩
  ({ SymbolIndex.empty with
      defs := (SortedMap.empty.insert "m.f" ⟨"f", .functionDef, "m", none⟩).insert "m.g"
        ⟨"g", .functionDef, "m", none⟩
      envs := (SortedMap.empty.insert "m.f" (env "m.f")).insert "m.g" (env "m.g")
      signatures := SortedMap.empty.insert "m.f" [⟨[("x", .nothing)]⟩] },
    [read (some "m.f") .any, read (some "m.g") .any, read (some "m.f") (.named "int" []), call],
    [read none .any, read (some "m.g") .any, call, read (some "m.f") .any,
      read (some "m.f") (.named "int" [])])

/-- Both sequences lead to one call graph, in which `m.f` has both of its reads in order,
its call, and the definite type for its parameter. -/
theorem run_shuffledSteps :
    let (index, steps, steps') := shuffledSteps
    AgreeByScope steps steps' ∧ (start index "m").run steps = (start index "m").run steps' ∧
      ∃ f, ((start index "m").run steps').function? "m.f" = some f ∧
        f.params = [⟨"x", .concrete (.named "int" [])⟩] ∧
        f.paramReads.map (·.typeName) = ["typing.Any", "int"] ∧
        f.calls.map (·.functionId) = ["m.g"] := by
  have hagree : AgreeByScope shuffledSteps.2.1 shuffledSteps.2.2 := by
    intro scope
    by_cases hf : scope = "m.f"
    · subst hf
      decide +kernel
    · by_cases hg : scope = "m.g"
      · subst hg
        decide +kernel
      · simp [shuffledSteps, linksTo, callsFrom, List.filterMap_cons, linkTo?, callFrom?,
          Ne.symm hf, Ne.symm hg]
  refine ⟨hagree, (run_reordered shuffledSteps.1 "m").1 _ _ hagree, ?_⟩
  have hsome : (((start shuffledSteps.1 "m").run shuffledSteps.2.2).function? "m.f").map
      (fun f => (f.params, f.paramReads.map (·.typeName), f.calls.map (·.functionId))) =
      some ([⟨"x", .concrete (.named "int" [])⟩], ["typing.Any", "int"], ["m.g"]) := by
    decide +kernel
  rcases Option.map_eq_some_iff.1 hsome with ⟨f, hf, hfields⟩
  simp only [Prod.mk.injEq] at hfields
  exact ⟨f, hf, hfields⟩

end CallGraph

end TypeTrace

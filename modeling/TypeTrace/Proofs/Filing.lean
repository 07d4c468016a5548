import TypeTrace.Proofs.GraphFold

/-!
# What is filed with a function

The reads and the calls of a function are those that the steps of the fold mean to it,
each list in the order of the steps. What a step means is found in the index alone: the
object that is read and the variables that are passed are looked up in the table of the
function's own scope. A step whose scope has no function is dropped.

Main results:

* `filed_effect`: what one step files with a function;
* `step_eq_self`: a step whose scope has no function changes nothing;
* `run_filed`: the reads and the calls of each function after any steps.
-/

namespace TypeTrace

/-! ## Steps of a scope -/

namespace GraphStep

/-- The scope whose function a step is meant for. -/
def scope? : GraphStep → Option String
  | link r _ => r.refScope
  | call c => some c.scope

/-- The link that a step folds in, if it refers to a scope. -/
def linkTo? (scope : String) : GraphStep → Option (Reference × Definition)
  | link r d => if r.refScope = some scope then some (r, d) else none
  | call _ => none

/-- The call that a step folds in, if it is made in a scope. -/
def callFrom? (scope : String) : GraphStep → Option Funcall
  | link .. => none
  | call c => if c.scope = scope then some c else none

/-- A step for another scope, or for none, is no link to a scope and no call from it. -/
theorem linkTo?_callFrom?_eq_none {s : GraphStep} {scope : String} (h : s.scope? ≠ some scope) :
    s.linkTo? scope = none ∧ s.callFrom? scope = none := by
  cases s with
  | link r d => exact ⟨if_neg h, rfl⟩
  | call c => exact ⟨rfl, if_neg fun heq => h (congrArg some heq)⟩

/-- The links that refer to a scope, in the order of the steps. -/
def linksTo (scope : String) (steps : List GraphStep) : List (Reference × Definition) :=
  steps.filterMap (linkTo? scope)

/-- The calls that are made in a scope, in the order of the steps. -/
def callsFrom (scope : String) (steps : List GraphStep) : List Funcall :=
  steps.filterMap (callFrom? scope)

end GraphStep

/-! ## What links and calls mean in a scope -/

namespace SymbolIndex

/-- The reading that a link means in a scope, if it links an attribute and the table of
that scope itself binds the object. -/
def readIn? (index : SymbolIndex) (scope : String) (l : Reference × Definition) :
    Option AttributeRead :=
  if l.1.kind = .attr then
    (l.1.target.bind (index.symbol? scope)).map fun object =>
      { object := object.name, objectKind := object.kind, typeName := l.2.typeName,
        attr := l.1.name, location := l.1.location }
  else none

/-- A variable with the kind and the type under which the table of a scope itself binds
it. Without a binding it has no kind and the type `Any`. -/
def argIn (index : SymbolIndex) (scope name : String) : Arg :=
  let bound := index.symbol? scope name
  { name, kind := bound.map (·.kind), typeName := (bound.map (·.typeName)).getD Ty.anyName }

/-- The edge that a call means in a scope, with one argument for each name. -/
def edgeIn (index : SymbolIndex) (scope : String) (c : Funcall) : Call :=
  { functionId := c.functionId, args := c.args.map (index.argIn scope), location := c.location }

end SymbolIndex

/-- The arguments that a call graph lists are found in its index. -/
theorem CallGraph.argOf_eq_argIn (index : SymbolIndex) (functions : SortedMap String Function)
    (scope name : String) :
    argOf { index, functions } scope name = index.argIn scope name := by
  unfold argOf SymbolIndex.argIn
  dsimp only
  cases index.symbol? scope name <;> rfl

/-- A reading is filed once, by what is read from. -/
theorem Function.reads_addRead (f : Function) (read : AttributeRead) :
    (f.addRead read).paramReads = f.paramReads ++ [read].filter (·.objectKind = .param) ∧
      (f.addRead read).localReads = f.localReads ++ [read].filter (·.objectKind ≠ .param) ∧
      (f.addRead read).calls = f.calls := by
  unfold addRead
  by_cases hparam : read.objectKind = .param <;> simp [hparam]

namespace GraphStep

/-- The reading that a step means to a function is that of a link to its scope. -/
theorem readBy?_eq (index : SymbolIndex) (id : String) (s : GraphStep) :
    s.readBy? index id = (s.linkTo? id).bind (index.readIn? id) := by
  cases s with
  | call c => rfl
  | link r d =>
      unfold readBy? linkTo?
      by_cases hscope : r.refScope = some id
      · simp [hscope, SymbolIndex.readIn?]
      · simp [hscope]

/-- The edge that a step means to a function is that of a call from its scope. -/
theorem edgeFrom?_eq (index : SymbolIndex) (id : String) (s : GraphStep) :
    s.edgeFrom? index id = (s.callFrom? id).map (index.edgeIn id) := by
  cases s with
  | link r d => rfl
  | call c =>
      unfold edgeFrom? callFrom?
      dsimp only
      by_cases hscope : c.scope = id
      · have hargs : c.args.map (CallGraph.argOf { index, functions := .empty } id) =
            c.args.map (index.argIn id) :=
          List.map_congr_left fun name _ => CallGraph.argOf_eq_argIn index .empty id name
        rw [if_pos hscope, if_pos hscope, hargs]
        rfl
      · rw [if_neg hscope, if_neg hscope]
        rfl

/-! ## Filing one step -/

/-- A step files the reading and the call that it means and touches nothing else that is
filed. -/
theorem filed_effect (index : SymbolIndex) (id : String) (s : GraphStep) (f : Function) :
    let reads := (s.readBy? index id).toList
    (s.effect index id f).paramReads = f.paramReads ++ reads.filter (·.objectKind = .param) ∧
      (s.effect index id f).localReads =
        f.localReads ++ reads.filter (·.objectKind ≠ .param) ∧
      (s.effect index id f).calls = f.calls ++ (s.edgeFrom? index id).toList := by
  intro reads
  cases s with
  | call c =>
      have hreads : reads = [] := rfl
      rw [hreads]
      unfold effect
      dsimp only
      cases (call c).edgeFrom? index id with
      | none => simp
      | some edge => simp [Function.addCall]
  | link r d =>
      -- Taking a type over to a parameter files nothing.
      have hfill : ∀ f : Function,
          let filled := if d.kind = .param ∧ r.refScope = some id then
            f.refineParam d.name r.resolvedType else f
          filled.paramReads = f.paramReads ∧ filled.localReads = f.localReads ∧
            filled.calls = f.calls := by
        intro f filled
        simp only [filled]
        split <;> exact ⟨rfl, rfl, rfl⟩
      have hcalls : ((link r d).edgeFrom? index id).toList = [] := rfl
      rw [hcalls]
      unfold effect
      dsimp only [reads]
      rcases hfill (((link r d).readBy? index id).elim f f.addRead) with ⟨hparam, hlocal, hcall⟩
      rw [hparam, hlocal, hcall]
      cases (link r d).readBy? index id with
      | none => simp
      | some read => simpa using f.reads_addRead read

/-- A sequence of steps files what its steps mean, in order. -/
theorem filed_foldl_effect (index : SymbolIndex) (id : String) (steps : List GraphStep)
    (f : Function) :
    let last := steps.foldl (fun f s => s.effect index id f) f
    let reads := steps.filterMap (·.readBy? index id)
    last.paramReads = f.paramReads ++ reads.filter (·.objectKind = .param) ∧
      last.localReads = f.localReads ++ reads.filter (·.objectKind ≠ .param) ∧
      last.calls = f.calls ++ steps.filterMap (·.edgeFrom? index id) := by
  induction steps generalizing f with
  | nil => simp
  | cons s steps ih =>
      rcases filed_effect index id s f with ⟨hparam, hlocal, hcalls⟩
      rcases ih (s.effect index id f) with ⟨hparam', hlocal', hcalls'⟩
      dsimp only
      rw [List.foldl_cons, hparam', hlocal', hcalls', hparam, hlocal, hcalls,
        filterMap_cons_eq_append, filterMap_cons_eq_append]
      simp only [List.filter_append, List.append_assoc, and_self]

/-- A step does nothing to a function that it is not meant for. -/
theorem effect_eq_self {s : GraphStep} {id : String} (h : s.scope? ≠ some id)
    (index : SymbolIndex) (f : Function) : s.effect index id f = f := by
  rcases linkTo?_callFrom?_eq_none h with ⟨hlink, hcall⟩
  unfold effect
  cases s with
  | link r d =>
      have hfill : ¬(d.kind = .param ∧ r.refScope = some id) := fun hboth => h hboth.2
      dsimp only
      rw [readBy?_eq, hlink, if_neg hfill]
      rfl
  | call c =>
      dsimp only
      rw [edgeFrom?_eq, hcall]
      rfl

end GraphStep

/-! ## Following all functions -/

namespace CallGraph

open GraphStep

/-- Two call graphs of one index with the same functions are equal. -/
theorem ext_function? {g g' : CallGraph} (hindex : g.index = g'.index)
    (hfunctions : ∀ id, g.function? id = g'.function? id) : g = g' := by
  rcases g with ⟨index, functions⟩
  rcases g' with ⟨index', functions'⟩
  have hfunctions' : functions = functions' := SortedMap.ext_find? hfunctions
  have hindex' : index = index' := hindex
  rw [hindex', hfunctions']

/-- A step whose scope is not known or has no function changes nothing. -/
theorem step_eq_self {g : CallGraph} {s : GraphStep} (h : s.scope?.bind g.function? = none) :
    g.step s = g := by
  refine ext_function? (g.index_step s) fun id => ?_
  rw [function?_step]
  by_cases hscope : s.scope? = some id
  · rw [hscope, Option.bind_some] at h
    rw [h]
    rfl
  · have hself : s.effect g.index id = fun f => f :=
      funext fun f => effect_eq_self hscope g.index f
    rw [hself, Option.map_id']

/-- Nothing is filed with a function before any step. -/
theorem filed_start {index : SymbolIndex} {moduleId id : String} {f : Function}
    (h : (start index moduleId).function? id = some f) :
    f.paramReads = [] ∧ f.localReads = [] ∧ f.calls = [] := by
  rw [function?_start] at h
  split at h
  · rcases Option.some.inj h with rfl
    exact ⟨rfl, rfl, rfl⟩
  · split at h
    · rcases Option.some.inj h with rfl
      exact ⟨rfl, rfl, rfl⟩
    · exact absurd h (by simp)

/-- What is filed with each function of a call graph after any links and calls were
folded in. Its reads are what the links mean that refer to its scope, those of parameters
in one list and all others in another one, and its calls are those that are made in its
scope. Each list is in the order of the steps. One more link or call changes nothing if
its scope has no function. -/
theorem run_filed (index : SymbolIndex) (moduleId : String) (steps : List GraphStep) :
    let g := (start index moduleId).run steps
    (∀ id f, g.function? id = some f →
        let reads := (linksTo id steps).filterMap (index.readIn? id)
        f.paramReads = reads.filter (·.objectKind = .param) ∧
          f.localReads = reads.filter (·.objectKind ≠ .param) ∧
          f.calls = (callsFrom id steps).map (index.edgeIn id)) ∧
      ∀ s : GraphStep, s.scope?.bind g.function? = none → g.step s = g := by
  intro g
  refine ⟨?_, fun s h => step_eq_self h⟩
  intro id f hf reads
  have hrun := (start index moduleId).function?_run steps id
  rw [hf] at hrun
  rcases Option.map_eq_some_iff.1 hrun.symm with ⟨f₀, hstart, rfl⟩
  rcases filed_start hstart with ⟨hparam₀, hlocal₀, hcalls₀⟩
  rcases filed_foldl_effect (start index moduleId).index id steps f₀ with ⟨hparam, hlocal, hcalls⟩
  have hreads : steps.filterMap (·.readBy? index id) = reads := by
    simp only [reads, linksTo, List.filterMap_filterMap, readBy?_eq]
  have hedges : steps.filterMap (·.edgeFrom? index id) =
      (callsFrom id steps).map (index.edgeIn id) := by
    simp only [callsFrom, List.map_filterMap, edgeFrom?_eq]
  rw [hparam₀, List.nil_append] at hparam
  rw [hlocal₀, List.nil_append] at hlocal
  rw [hcalls₀, List.nil_append] at hcalls
  exact ⟨hparam.trans (congrArg _ hreads), hlocal.trans (congrArg _ hreads), hcalls.trans hedges⟩

/-- A function `m.f` with a parameter `x` and a variable `y` inside a module that binds
`z`. It reads attributes of all three and calls `g` with `x` and `z`, and a function that
is not known calls `g` as well. -/
def readsAndCalls : SymbolIndex × List GraphStep :=
  let env (scope : String) (parent : Option String) (symbols : List Definition) : Env :=
    symbols.foldl Env.bind { Env.ofScope scope with parent }
  let read (object : String) (line : UInt32) (d : Definition) : GraphStep :=
    .link { Reference.ofUse "size" .attr "m.f" ⟨line, 4⟩ with target := some object } d
  let call (scope : String) : GraphStep :=
    .call ⟨"g", scope, "m.g", ⟨9, 0⟩, ["x", "z"], none⟩
  ({ SymbolIndex.empty with
      defs := SortedMap.empty.insert "m.f" ⟨"f", .functionDef, "m", none⟩
      envs := (SortedMap.empty.insert "m" (env "m" none [⟨"z", .store, "m", none⟩])).insert "m.f"
        (env "m.f" (some "m")
          [⟨"x", .param, "m.f", some (.named "list" [])⟩, ⟨"y", .store, "m.f", none⟩]) },
    [read "y" 1 ⟨"size", .attr, "Y", none⟩, call "m.h", read "z" 2 ⟨"size", .attr, "Z", none⟩,
      read "x" 3 ⟨"x", .param, "m.f", some (.named "int" [])⟩, call "m.f",
      read "y" 4 ⟨"size", .attr, "Y", some .any⟩])

/-- The reads of `x` and `y` are filed apart, and that of `z` is not filed, since only the
scope around the function binds `z`. For the same reason the second argument of the call
has no kind. The call from the unknown function changes nothing. -/
theorem run_readsAndCalls :
    let g := (start readsAndCalls.1 "m").run readsAndCalls.2
    (∃ f, g.function? "m.f" = some f ∧
        f.paramReads = [⟨"x", .param, "int", "size", ⟨3, 4⟩⟩] ∧
        f.localReads = [⟨"y", .store, "typing.Any", "size", ⟨1, 4⟩⟩,
          ⟨"y", .store, "typing.Any", "size", ⟨4, 4⟩⟩] ∧
        f.calls = [⟨"m.g", [⟨"x", some .param, "list"⟩, ⟨"z", none, "typing.Any"⟩], ⟨9, 0⟩⟩]) ∧
      g.addCall ⟨"g", "m.h", "m.g", ⟨9, 0⟩, ["x", "z"], none⟩ = g := by
  intro g
  obtain ⟨hfiled, hdropped⟩ := run_filed readsAndCalls.1 "m" readsAndCalls.2
  refine ⟨?_, hdropped (.call _) (by decide +kernel)⟩
  have hsome : (g.function? "m.f").isSome = true := by
    decide +kernel
  rcases Option.isSome_iff_exists.1 hsome with ⟨f, hf⟩
  rcases hfiled "m.f" f hf with ⟨hparam, hlocal, hcalls⟩
  refine ⟨f, hf, hparam.trans ?_, hlocal.trans ?_, hcalls.trans ?_⟩
  · decide +kernel
  · decide +kernel
  · decide +kernel

end CallGraph

end TypeTrace

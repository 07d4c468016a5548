import TypeTrace.CallGraph.Basic

/-!
# Folding links and calls into a call graph

A step of the fold changes one function at most, and how it changes a function depends
on the index and on that function alone. So every function of a call graph can be
followed on its own through any sequence of steps.

Main results:

* `find?_ofList_map`: a table that is made from keys;
* `build_eq_run`: building a call graph is a run of steps;
* `function?_start`: the functions before any step;
* `function?_step`: what one step does to each function;
* `function?_run`: what a sequence of steps does to each function.
-/

namespace TypeTrace

/-! ## Tables -/

namespace SortedMap

universe u v

variable {κ : Type u} {ν : Type v} [Ord κ] [Std.LawfulEqOrd κ] [Std.TransOrd κ] [DecidableEq κ]

theorem find?_foldl_insert (f : κ → ν) (ks : List κ) (m : SortedMap κ ν)
    (k : κ) :
    ((ks.map fun k => (k, f k)).foldl (fun m e => m.insert e.1 e.2) m).find? k =
      if k ∈ ks then some (f k) else m.find? k := by
  induction ks generalizing m with
  | nil => rfl
  | cons k' ks ih =>
      rw [List.map_cons, List.foldl_cons, ih, find?_insert]
      by_cases hrest : k ∈ ks
      · rw [if_pos hrest, if_pos (List.mem_cons_of_mem _ hrest)]
      · rw [if_neg hrest]
        by_cases hfirst : k = k'
        · rw [if_pos hfirst, if_pos (List.mem_cons.2 (.inl hfirst)), hfirst]
        · rw [if_neg hfirst, if_neg fun h => (List.mem_cons.1 h).elim hfirst hrest]

/-- A table that is made from keys binds each of them to its value. -/
theorem find?_ofList_map (f : κ → ν) (ks : List κ) (k : κ) :
    (ofList (ks.map fun k => (k, f k))).find? k = if k ∈ ks then some (f k) else none :=
  find?_foldl_insert f ks empty k

end SortedMap

theorem SymbolIndex.mem_functionIds {index : SymbolIndex} {id : String} :
    id ∈ index.functionIds ↔ ∃ d, index.defs.find? id = some d ∧ d.kind = .functionDef := by
  unfold functionIds
  rw [List.mem_map]
  constructor
  · rintro ⟨⟨id, d⟩, h, rfl⟩
    rcases List.mem_filter.1 h with ⟨hmem, hkind⟩
    exact ⟨d, (index.defs.mem_toList_iff id d).1 hmem, of_decide_eq_true hkind⟩
  · rintro ⟨d, hfind, hkind⟩
    refine ⟨(id, d), List.mem_filter.2 ⟨?_, decide_eq_true hkind⟩, rfl⟩
    exact (index.defs.mem_toList_iff id d).2 hfind

/-! ## Steps -/

/-- One step of the fold. -/
inductive GraphStep where
  | link (r : Reference) (d : Definition)
  | call (c : Funcall)
  deriving DecidableEq, Repr

namespace CallGraph

def step (g : CallGraph) : GraphStep → CallGraph
  | .link r d => g.addLink r d
  | .call c => g.addCall c

/-- Folds a sequence of steps in. -/
def run (g : CallGraph) (steps : List GraphStep) : CallGraph := steps.foldl step g

/-- A call graph is built by one run, over all links and then over all calls. -/
theorem build_eq_run (index : SymbolIndex) (moduleId : String) :
    build index moduleId =
      (start index moduleId).run
        (index.links.map (fun l => .link l.1 l.2) ++ index.calls.map .call) := by
  unfold build run
  rw [List.foldl_append, List.foldl_map, List.foldl_map]
  rfl

end CallGraph

/-- What a first step tells stands before what the others tell. -/
theorem filterMap_cons_eq_append {α β : Type} (f : α → Option β) (a : α) (as : List α) :
    (a :: as).filterMap f = (f a).toList ++ as.filterMap f := by
  rw [List.filterMap_cons]
  cases f a <;> rfl

namespace GraphStep

/-- The reading that a link to an attribute means to the function of an id. -/
def readBy? (index : SymbolIndex) (id : String) : GraphStep → Option AttributeRead
  | link r d =>
    if r.kind = .attr ∧ r.refScope = some id then
      (r.target.bind (index.symbol? id)).map fun target =>
        { object := target.name, objectKind := target.kind, typeName := d.typeName,
          attr := r.name, location := r.location }
    else none
  | call _ => none

/-- The type that a link to a parameter tells about a parameter of the function of an
id. A link that has none tells `Any`. -/
def typeFor? (id name : String) : GraphStep → Option Ty
  | link r d =>
    if d.kind = .param ∧ d.name = name ∧ r.refScope = some id then some (r.type.getD .any)
    else none
  | call _ => none

/-- The edge that a call means to the function of an id. -/
def edgeFrom? (index : SymbolIndex) (id : String) : GraphStep → Option Call
  | link .. => none
  | call c =>
    if c.scope = id then
      some
        { functionId := c.functionId
          args := c.args.map (CallGraph.argOf { index, functions := .empty } id)
          location := c.location }
    else none

/-- What a step does to the function of an id. -/
def effect (index : SymbolIndex) (id : String) (s : GraphStep) (f : Function) : Function :=
  match s with
  | link r d =>
    let f := ((link r d).readBy? index id).elim f f.addRead
    if d.kind = .param ∧ r.refScope = some id then f.refineParam d.name r.resolvedType else f
  | call c => ((call c).edgeFrom? index id).elim f f.addCall

end GraphStep

/-! ## Following one function -/

namespace CallGraph

/-- The functions before any step: one for each definition of a function, and an empty
one for the top level of the module. -/
theorem function?_start (index : SymbolIndex) (moduleId id : String) :
    (start index moduleId).function? id =
      if id = moduleId then some (.ofId moduleId)
      else if id ∈ index.functionIds then some (functionOf index id) else none := by
  unfold function? start
  rw [SortedMap.find?_insert, SortedMap.find?_ofList_map]

/-- Changing one function changes it where it is and leaves all others alone. -/
theorem function?_modify (g : CallGraph) (scope : String) (change : Function → Function)
    (id : String) :
    ({ g with functions := g.functions.modify scope change } : CallGraph).function? id =
      (g.function? id).map fun f => if scope = id then change f else f := by
  unfold function?
  rw [SortedMap.find?_modify]
  by_cases h : id = scope
  · subst h
    simp only [if_true]
  · simp only [if_neg h, if_neg (Ne.symm h), Option.map_id']

theorem index_addRead (g : CallGraph) (r : Reference) (d : Definition) :
    (g.addRead r d).index = g.index := by
  unfold addRead
  split <;> rfl

theorem index_refineParam (g : CallGraph) (r : Reference) (d : Definition) :
    (g.refineParam r d).index = g.index := by
  unfold refineParam
  split <;> rfl

theorem index_addLink (g : CallGraph) (r : Reference) (d : Definition) :
    (g.addLink r d).index = g.index := by
  unfold addLink
  dsimp only
  split <;> split <;> simp [index_addRead, index_refineParam]

/-- The index stays as it is. -/
theorem index_step (g : CallGraph) (s : GraphStep) : (g.step s).index = g.index := by
  cases s with
  | link r d => exact g.index_addLink r d
  | call c => rfl

/-- A link to an attribute files its reading with the function that it means. -/
theorem function?_addRead (g : CallGraph) {r : Reference} (h : r.kind = .attr) (d : Definition)
    (id : String) :
    (g.addRead r d).function? id =
      (g.function? id).map fun f =>
        ((GraphStep.link r d).readBy? g.index id).elim f f.addRead := by
  rcases r with ⟨name, kind, scope, refScope, target, location, type⟩
  have hkind : kind = .attr := h
  subst hkind
  unfold addRead readOf
  cases refScope with
  | none => simp [GraphStep.readBy?]
  | some scope =>
      dsimp only
      cases htarget : target.bind (g.index.symbol? scope) with
      | none =>
          by_cases hid : scope = id
          · subst hid
            simp [GraphStep.readBy?, htarget]
          · simp [GraphStep.readBy?, hid]
      | some bound =>
          dsimp only
          by_cases hfunction : (g.function? scope).isSome
          · rw [if_pos hfunction]
            dsimp only
            rw [function?_modify]
            by_cases hid : scope = id
            · subst hid
              simp [GraphStep.readBy?, htarget]
            · simp [GraphStep.readBy?, hid]
          · rw [if_neg hfunction]
            by_cases hid : scope = id
            · subst hid
              rw [Option.not_isSome_iff_eq_none.1 hfunction]
              rfl
            · simp [GraphStep.readBy?, hid]

/-- A link to a parameter tells its type to the function that it refers to. -/
theorem function?_refineParam (g : CallGraph) (r : Reference) (d : Definition) (id : String) :
    (g.refineParam r d).function? id =
      (g.function? id).map fun f =>
        if r.refScope = some id then f.refineParam d.name r.resolvedType else f := by
  unfold refineParam
  cases hscope : r.refScope with
  | none => simp
  | some scope =>
      dsimp only
      rw [function?_modify]
      simp only [Option.some.injEq]

theorem function?_addLink (g : CallGraph) (r : Reference) (d : Definition) (id : String) :
    (g.addLink r d).function? id =
      (g.function? id).map ((GraphStep.link r d).effect g.index id) := by
  -- A link that reads no attribute means no reading to any function.
  have hread : (if r.kind = .attr then g.addRead r d else g).function? id =
      (g.function? id).map fun f =>
        ((GraphStep.link r d).readBy? g.index id).elim f f.addRead := by
    by_cases hattr : r.kind = .attr
    · rw [if_pos hattr]
      exact g.function?_addRead hattr d id
    · simp [hattr, GraphStep.readBy?]
  unfold addLink
  dsimp only
  by_cases hparam : d.kind = .param
  · rw [if_pos hparam, function?_refineParam, hread, Option.map_map]
    congr 1
    funext f
    simp [GraphStep.effect, hparam]
  · rw [if_neg hparam, hread]
    congr 1
    funext f
    simp [GraphStep.effect, hparam]

theorem function?_addCall (g : CallGraph) (c : Funcall) (id : String) :
    (g.addCall c).function? id =
      (g.function? id).map ((GraphStep.call c).effect g.index id) := by
  unfold addCall
  dsimp only
  rw [function?_modify]
  congr 1
  funext f
  by_cases hscope : c.scope = id
  · subst hscope
    simp only [GraphStep.effect, GraphStep.edgeFrom?, if_true]
    rfl
  · simp [GraphStep.effect, GraphStep.edgeFrom?, hscope]

/-- A step has its effect on each function and makes or removes none. -/
theorem function?_step (g : CallGraph) (s : GraphStep) (id : String) :
    (g.step s).function? id = (g.function? id).map (s.effect g.index id) := by
  cases s with
  | link r d => exact g.function?_addLink r d id
  | call c => exact g.function?_addCall c id

/-- A sequence of steps has the effects of its steps on each function, one after the
other. -/
theorem function?_run (g : CallGraph) (steps : List GraphStep) (id : String) :
    (g.run steps).function? id =
      (g.function? id).map fun f => steps.foldl (fun f s => s.effect g.index id f) f := by
  induction steps generalizing g with
  | nil => exact Option.map_id'.symm
  | cons s steps ih =>
      have hrest := ih (g.step s)
      rw [index_step, function?_step, Option.map_map] at hrest
      exact hrest

end CallGraph

end TypeTrace

import TypeTrace.Proofs.IndexHistory
import TypeTrace.Proofs.ParameterTypes

/-!
# Functions whose id was bound first as a function

An index keeps the first definition of an id, and a call graph has a function for each
definition that is kept and defines one. So a function of the source has its place in
the call graph unless its id was bound to something else before, such as an import.
What the id is bound to later changes nothing.

Main results:

* `firstDefinition?_define`: the first definition of an id that is defined somewhere;
* `mem_keys_build_ofSteps`: the functions of a call graph from the history of its index;
* `mem_keys_build_define`: which functions of the source are in the call graph.
-/

namespace TypeTrace

namespace IndexStep

/-- The first definition of an id. -/
def firstDefinition? (id : String) (steps : List IndexStep) : Option Definition :=
  ((definitions steps).map (·.1)).find? (·.id = id)

/-- The first definition of an id that is defined somewhere comes before that, or it is
the one that is made there. -/
theorem firstDefinition?_define (before after : List IndexStep) (d : Definition)
    (location : Location) :
    firstDefinition? d.id (before ++ .define d location :: after) =
      some ((firstDefinition? d.id before).getD d) := by
  have hsplit : definitions (before ++ .define d location :: after) =
      definitions before ++ (d, location) :: definitions after := List.filterMap_append
  have hself : (d :: (definitions after).map (·.1)).find? (·.id = d.id) = some d :=
    List.find?_cons_of_pos (decide_eq_true rfl)
  unfold firstDefinition?
  rw [hsplit, List.map_append, List.find?_append, List.map_cons, hself]
  cases ((definitions before).map (·.1)).find? (·.id = d.id) <;> rfl

end IndexStep

namespace SymbolIndex

open IndexStep

/-- The call graph of an index has the functions whose ids are first defined as functions,
and the top level of the module. -/
theorem mem_keys_build_ofSteps (steps : List IndexStep) (moduleId id : String) :
    id ∈ (CallGraph.build (ofSteps steps) moduleId).functions.keys ↔
      id = moduleId ∨ ∃ d, firstDefinition? id steps = some d ∧ d.kind = .functionDef := by
  rw [CallGraph.build_eq_run, CallGraph.mem_keys_run, find?_defs_ofSteps]
  rfl

/-- A function that is defined at some step is in the call graph if its id was first
defined as a function up to that step, or if it is the id of the module. The steps that
come later do not matter. -/
theorem mem_keys_build_define (before after : List IndexStep) {d : Definition}
    (hkind : d.kind = .functionDef) (location : Location) (moduleId : String) :
    let index := ofSteps (before ++ .define d location :: after)
    d.id ∈ (CallGraph.build index moduleId).functions.keys ↔
      d.id = moduleId ∨
        ∀ first, firstDefinition? d.id before = some first → first.kind = .functionDef := by
  intro index
  rw [mem_keys_build_ofSteps, firstDefinition?_define]
  cases firstDefinition? d.id before with
  | none => simp [hkind]
  | some first => simp

/-- A function `f` that is imported, defined again and bound to a class after its first
definition. -/
def redefined : List IndexStep × List IndexStep :=
  ([.define ⟨"f", .functionDef, "module", none⟩ ⟨1, 0⟩,
      .define ⟨"f", .importFrom, "module", none⟩ ⟨2, 0⟩],
    [.env (.ofScope "module"), .define ⟨"f", .classDef, "module", none⟩ ⟨5, 0⟩])

/-- The second definition of the function has its place, since the first one has. -/
theorem mem_keys_build_redefined :
    let d : Definition := ⟨"f", .functionDef, "module", none⟩
    d.kind = .functionDef ∧ firstDefinition? d.id redefined.1 = some d ∧
      d.id ∈ (CallGraph.build (ofSteps (redefined.1 ++ .define d ⟨4, 0⟩ :: redefined.2))
        "module").functions.keys := by
  intro d
  have hfirst : firstDefinition? d.id redefined.1 = some d := by decide +kernel
  refine ⟨rfl, hfirst, ?_⟩
  refine (mem_keys_build_define redefined.1 redefined.2 rfl ⟨4, 0⟩ "module").2 (.inr ?_)
  intro first h
  rw [hfirst] at h
  rcases Option.some.inj h with rfl
  rfl

/-- An import of `f` with a definition of a function `f` as the fallback. -/
def importedFirst : List IndexStep :=
  [.define ⟨"f", .importFrom, "module", none⟩ ⟨2, 4⟩,
    .define ⟨"f", .functionDef, "module", none⟩ ⟨4, 4⟩]

/-- The function is recorded and the scope binds its name to it, but it is not in the call
graph, because its id was bound to the import before. -/
theorem not_mem_keys_build_importedFirst :
    let d : Definition := ⟨"f", .functionDef, "module", none⟩
    .define d ⟨4, 4⟩ ∈ importedFirst ∧ d.kind = .functionDef ∧
      (ofSteps importedFirst).symbol? "module" "f" = some d ∧
      d.id ∉ (CallGraph.build (ofSteps importedFirst) "module").functions.keys := by
  decide +kernel

end SymbolIndex

end TypeTrace

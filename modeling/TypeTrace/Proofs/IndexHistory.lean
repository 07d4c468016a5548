import Mathlib.Data.List.DropRight
import TypeTrace.Index.SymbolIndex

/-!
# The history of a symbol index

An index that is filled from nothing, scope by scope and definition by definition. Each
of its tables keeps another part of that history. Of several definitions of one id the
first one is kept with the places of all, and in the table of a scope the last definition
of a name holds, until the scope is registered anew with a table of its own.

Main results:

* `find?_defs_ofSteps`, `find?_locs_ofSteps`: the definitions and the places of an id;
* `find?_envs_register`: what one step does to the table of a scope;
* `symbol?_ofSteps`: what a scope binds a name to;
* `ofSteps_tellsHistory`: all tables of an index after any steps.
-/

namespace TypeTrace

/-- A scope or a definition is recorded in an index. -/
inductive IndexStep where
  | env (env : Env)
  | define (d : Definition) (location : Location)
  deriving DecidableEq

namespace IndexStep

/-- The scope whose table a step changes. -/
def scope : IndexStep → String
  | env e => e.scope
  | define d _ => d.scope

/-- The definition that a step records, with its place. -/
def definition? : IndexStep → Option (Definition × Location)
  | env _ => none
  | define d location => some (d, location)

/-- What a step records a scope as. -/
def env? (scope : String) : IndexStep → Option Env
  | env e => if e.scope = scope then some e else none
  | define .. => none

/-- The definition to which a step binds a name of a scope. -/
def binding? (scope name : String) : IndexStep → Option Definition
  | env _ => none
  | define d _ => if d.scope = scope ∧ d.name = name then some d else none

/-! ## What steps tell -/

/-- The recorded definitions with their places, in order. -/
def definitions (steps : List IndexStep) : List (Definition × Location) :=
  steps.filterMap definition?

/-- The places of the definitions of an id, in order. -/
def places (id : String) (steps : List IndexStep) : List DefLocation :=
  ((definitions steps).filter (·.1.id = id)).map fun p => ⟨id, p.2⟩

/-- What a scope was recorded as the last time. -/
def lastEnv? (scope : String) (steps : List IndexStep) : Option Env :=
  (steps.filterMap (env? scope)).getLast?

/-- The steps after a scope was recorded the last time, or all steps if it never was. -/
def sinceEnv (scope : String) (steps : List IndexStep) : List IndexStep :=
  steps.rtakeWhile fun s => (s.env? scope).isNone

/-- The last definition of a name in a scope since the scope was recorded. -/
def lastBinding? (scope name : String) (steps : List IndexStep) : Option Definition :=
  ((sinceEnv scope steps).filterMap (binding? scope name)).getLast?

theorem getLast?_filterMap_concat {α β : Type} (f : α → Option β) (as : List α) (a : α) :
    ((as ++ [a]).filterMap f).getLast? = (f a).or (as.filterMap f).getLast? := by
  rw [List.filterMap_append]
  cases h : f a with
  | none => simp [List.filterMap_cons_none h]
  | some b => simp [List.filterMap_cons_some h]

theorem definitions_concat (steps : List IndexStep) (s : IndexStep) :
    definitions (steps ++ [s]) = definitions steps ++ s.definition?.toList := by
  unfold definitions
  rw [List.filterMap_append]
  cases h : s.definition? with
  | none => rw [List.filterMap_cons_none h]; rfl
  | some p => rw [List.filterMap_cons_some h]; rfl

theorem lastEnv?_concat (scope : String) (steps : List IndexStep) (s : IndexStep) :
    lastEnv? scope (steps ++ [s]) = (s.env? scope).or (lastEnv? scope steps) :=
  getLast?_filterMap_concat _ steps s

/-- Recording a scope makes its earlier bindings void. -/
theorem lastBinding?_concat_env (scope name : String) (steps : List IndexStep) (e : Env) :
    lastBinding? scope name (steps ++ [env e]) =
      if e.scope = scope then none else lastBinding? scope name steps := by
  unfold lastBinding? sinceEnv
  rw [List.rtakeWhile_concat]
  by_cases h : e.scope = scope
  · simp [env?, h]
  · simp [env?, h, binding?]

theorem lastBinding?_concat_define (scope name : String) (steps : List IndexStep)
    (d : Definition) (location : Location) :
    lastBinding? scope name (steps ++ [define d location]) =
      ((define d location).binding? scope name).or (lastBinding? scope name steps) := by
  have hkeeps : (((define d location).env? scope).isNone) = true := rfl
  unfold lastBinding? sinceEnv
  rw [List.rtakeWhile_concat, if_pos hkeeps, getLast?_filterMap_concat]

/-- The table of a scope after a step that changes it. -/
def envAfter : IndexStep → Option Env → Env
  | env e, _ => e
  | define d _, present => (present.getD (.ofScope d.scope)).bind d

end IndexStep

namespace SymbolIndex

open IndexStep

/-- Records a scope or a definition. -/
def register (index : SymbolIndex) : IndexStep → SymbolIndex
  | .env e => index.addEnv e
  | .define d location => index.addDef d location

/-- The index after steps from nothing. -/
def ofSteps (steps : List IndexStep) : SymbolIndex := steps.foldl register .empty

@[simp]
theorem ofSteps_nil : ofSteps [] = .empty :=
  rfl

theorem ofSteps_concat (steps : List IndexStep) (s : IndexStep) :
    ofSteps (steps ++ [s]) = (ofSteps steps).register s := by
  unfold ofSteps
  rw [List.foldl_append]
  rfl

/-! ## Definitions and places -/

/-- Of the definitions of an id the first one is kept. -/
theorem find?_defs_ofSteps (steps : List IndexStep) (id : String) :
    (ofSteps steps).defs.find? id = ((definitions steps).map (·.1)).find? (·.id = id) := by
  induction steps using List.reverseRecOn with
  | nil => rfl
  | append_singleton steps s ih =>
      rw [ofSteps_concat, definitions_concat, List.map_append, List.find?_append, ← ih]
      cases s with
      | env e => exact Option.or_none.symm
      | define d location =>
          have hdefs : ((ofSteps steps).register (define d location)).defs =
              (ofSteps steps).defs.upsert d.id fun present => present.getD d := rfl
          rw [hdefs, SortedMap.find?_upsert]
          by_cases hid : id = d.id
          · subst hid
            cases (ofSteps steps).defs.find? d.id <;> simp [definition?]
          · simp [hid, definition?, Ne.symm hid]

/-- The places of all definitions of an id are listed in order. -/
theorem find?_locs_ofSteps (steps : List IndexStep) (id : String) :
    (ofSteps steps).locs.find? id =
      if places id steps = [] then none else some (places id steps) := by
  induction steps using List.reverseRecOn with
  | nil => rfl
  | append_singleton steps s ih =>
      have hplaces : places id (steps ++ [s]) =
          places id steps ++ places id [s] := by
        unfold places definitions
        rw [List.filterMap_append, List.filter_append, List.map_append]
      rw [ofSteps_concat, hplaces]
      cases s with
      | env e =>
          have hnone : places id [env e] = [] := rfl
          rw [hnone, List.append_nil]
          exact ih
      | define d location =>
          have hlocs : ((ofSteps steps).register (define d location)).locs =
              (ofSteps steps).locs.upsert d.id
                fun present => present.getD [] ++ [⟨d.id, location⟩] := rfl
          rw [hlocs, SortedMap.find?_upsert]
          by_cases hid : id = d.id
          · subst hid
            have hplace : places d.id [define d location] = [⟨d.id, location⟩] := by
              simp [places, definitions, definition?]
            rw [if_pos rfl, ih, hplace]
            by_cases hfirst : places d.id steps = [] <;> simp [hfirst]
          · have hplace : places id [define d location] = [] := by
              simp [places, definitions, definition?, Ne.symm hid]
            rw [if_neg hid, ih, hplace, List.append_nil]

/-! ## Scopes -/

/-- A step changes the table of its own scope only. -/
theorem find?_envs_register (index : SymbolIndex) (s : IndexStep) (scope : String) :
    (index.register s).envs.find? scope =
      if scope = s.scope then some (s.envAfter (index.envs.find? scope))
      else index.envs.find? scope := by
  cases s with
  | env e => exact index.envs.find?_insert e.scope scope e
  | define d location =>
      have henvs : (index.register (define d location)).envs =
          index.envs.upsert d.scope fun present => (present.getD (.ofScope d.scope)).bind d := rfl
      rw [henvs, SortedMap.find?_upsert]
      by_cases hscope : scope = d.scope
      · subst hscope
        rfl
      · rw [if_neg hscope]
        exact (if_neg hscope).symm

/-- Each scope is listed under its own id. -/
theorem scope_of_find?_envs {steps : List IndexStep} {scope : String} {e : Env}
    (h : (ofSteps steps).envs.find? scope = some e) : e.scope = scope := by
  induction steps using List.reverseRecOn generalizing e with
  | nil => exact absurd h (by simp [empty])
  | append_singleton steps s ih =>
      rw [ofSteps_concat, find?_envs_register] at h
      by_cases hscope : scope = s.scope
      · rw [if_pos hscope] at h
        rcases Option.some.inj h with rfl
        cases s with
        | env e => exact hscope.symm
        | define d location =>
            cases hfind : (ofSteps steps).envs.find? scope with
            | none => exact hscope.symm
            | some e =>
                have hsame : e.scope = scope := ih hfind
                exact hsame
      · rw [if_neg hscope] at h
        exact ih h

/-- A scope is listed if a step named it. -/
theorem mem_keys_envs_ofSteps (steps : List IndexStep) (scope : String) :
    scope ∈ (ofSteps steps).envs.keys ↔ ∃ s ∈ steps, s.scope = scope := by
  rw [SortedMap.mem_keys_iff]
  induction steps using List.reverseRecOn with
  | nil => simp [empty]
  | append_singleton steps s ih =>
      rw [ofSteps_concat, find?_envs_register]
      by_cases hscope : scope = s.scope
      · simp [hscope]
      · rw [if_neg hscope, ih]
        simp [Ne.symm hscope]

/-- What a definition does not change of a scope is as the scope was recorded. -/
theorem bind_find?_envs_ofSteps {α : Type} {get : Env → Option α}
    (hbind : ∀ e d, get (e.bind d) = get e) (hnew : ∀ scope, get (.ofScope scope) = none)
    (steps : List IndexStep) (scope : String) :
    ((ofSteps steps).envs.find? scope).bind get = (lastEnv? scope steps).bind get := by
  induction steps using List.reverseRecOn with
  | nil => rfl
  | append_singleton steps s ih =>
      rw [ofSteps_concat, find?_envs_register, lastEnv?_concat]
      cases s with
      | env e =>
          by_cases hscope : e.scope = scope
          · simp [IndexStep.scope, env?, envAfter, hscope]
          · simp [IndexStep.scope, env?, hscope, Ne.symm hscope, ih]
      | define d location =>
          have hnone : (define d location).env? scope = none := rfl
          rw [hnone, Option.none_or, ← ih]
          by_cases hscope : scope = (define d location).scope
          · rw [if_pos hscope, Option.bind_some, envAfter, hbind]
            cases (ofSteps steps).envs.find? scope with
            | none => exact hnew d.scope
            | some e => rfl
          · rw [if_neg hscope]

/-- What a step binds a name of a scope to. -/
theorem symbol?_register (index : SymbolIndex) (s : IndexStep) (scope name : String) :
    (index.register s).symbol? scope name =
      match s.env? scope with
      | some e => e.find? name
      | none => (s.binding? scope name).or (index.symbol? scope name) := by
  unfold symbol?
  rw [find?_envs_register]
  cases s with
  | env e =>
      by_cases hscope : e.scope = scope
      · simp [IndexStep.scope, env?, envAfter, hscope]
      · simp [IndexStep.scope, env?, binding?, hscope, Ne.symm hscope]
  | define d location =>
      by_cases hscope : d.scope = scope
      · subst hscope
        have htable : ((define d location).envAfter (index.envs.find? d.scope)).find? name =
            if name = d.name then some d
            else (index.envs.find? d.scope).bind (·.find? name) := by
          unfold envAfter Env.bind Env.find?
          rw [SortedMap.find?_insert]
          cases index.envs.find? d.scope <;> rfl
        by_cases hname : d.name = name
        · subst hname
          simp [IndexStep.scope, env?, binding?, htable]
        · simp [IndexStep.scope, env?, binding?, htable, hname, Ne.symm hname]
      · simp [IndexStep.scope, env?, binding?, hscope, Ne.symm hscope]

/-- A scope binds a name to its last definition since the scope was recorded, or to what
it was recorded with. -/
theorem symbol?_ofSteps (steps : List IndexStep) (scope name : String) :
    (ofSteps steps).symbol? scope name =
      (lastBinding? scope name steps).or ((lastEnv? scope steps).bind (·.find? name)) := by
  induction steps using List.reverseRecOn with
  | nil => rfl
  | append_singleton steps s ih =>
      rw [ofSteps_concat, symbol?_register, lastEnv?_concat, ih]
      cases s with
      | env e =>
          rw [lastBinding?_concat_env]
          by_cases hscope : e.scope = scope
          · simp [env?, hscope]
          · simp [env?, binding?, hscope]
      | define d location =>
          rw [lastBinding?_concat_define, Option.or_assoc]
          rfl

/-! ## All tables -/

/-- The tables of an index tell what steps it was filled by. -/
structure TellsHistory (index : SymbolIndex) (steps : List IndexStep) : Prop where
  /-- An id has a definition if it has places. -/
  mem_defs_iff : ∀ id, id ∈ index.defs.keys ↔ id ∈ index.locs.keys
  /-- Definitions are listed under their ids. -/
  id_eq : ∀ id d, index.defs.find? id = some d → d.id = id
  /-- The first definition of an id is kept. -/
  defs_eq : ∀ id, index.defs.find? id = ((definitions steps).map (·.1)).find? (·.id = id)
  /-- The places of all definitions of an id are kept in order. -/
  locs_eq : ∀ id, (index.locs.find? id).getD [] = places id steps
  /-- Scopes are listed under their ids. -/
  scope_eq : ∀ scope e, index.envs.find? scope = some e → e.scope = scope
  /-- A scope is listed if it was recorded or a definition was recorded in it. -/
  mem_envs_iff : ∀ scope, scope ∈ index.envs.keys ↔ ∃ s ∈ steps, s.scope = scope
  /-- A scope binds a name to its last definition since the scope was recorded, or to what
  it was recorded with. -/
  symbol_eq : ∀ scope name,
    index.symbol? scope name =
      (lastBinding? scope name steps).or ((lastEnv? scope steps).bind (·.find? name))
  /-- The scope around a scope is as it was recorded. -/
  parent_eq : ∀ scope,
    (index.envs.find? scope).bind (·.parent) = (lastEnv? scope steps).bind (·.parent)
  /-- The return type of a scope is as it was recorded. -/
  ret_eq : ∀ scope,
    (index.envs.find? scope).bind (·.ret) = (lastEnv? scope steps).bind (·.ret)

/-- After any steps from nothing the tables of an index tell those steps, also where
definitions of different scopes have the same id. -/
theorem ofSteps_tellsHistory (steps : List IndexStep) :
    (ofSteps steps).TellsHistory steps where
  mem_defs_iff id := by
    rw [SortedMap.mem_keys_iff, SortedMap.mem_keys_iff, find?_defs_ofSteps, find?_locs_ofSteps,
      List.find?_isSome]
    by_cases hplaces : places id steps = []
    · rw [if_pos hplaces]
      simpa [places] using hplaces
    · rw [if_neg hplaces]
      simpa [places] using hplaces
  id_eq id d h := by
    rw [find?_defs_ofSteps] at h
    have hid := List.find?_some h
    exact of_decide_eq_true hid
  defs_eq := find?_defs_ofSteps steps
  locs_eq id := by
    rw [find?_locs_ofSteps]
    by_cases hplaces : places id steps = []
    · rw [if_pos hplaces]
      exact hplaces.symm
    · rw [if_neg hplaces]
      rfl
  scope_eq scope e h := scope_of_find?_envs h
  mem_envs_iff := mem_keys_envs_ofSteps steps
  symbol_eq := symbol?_ofSteps steps
  parent_eq := bind_find?_envs_ofSteps (fun _ _ => rfl) (fun _ => rfl) steps
  ret_eq := bind_find?_envs_ofSteps (fun _ _ => rfl) (fun _ => rfl) steps

/-- A function `b.c` of `a` and a name `c` of `a.b`, which have one id. The scope `a.b` is
recorded with a binding of `x` after a first definition of `c`, and `a` is recorded at the
end. -/
def sharedId : List IndexStep :=
  [.define ⟨"c", .param, "a.b", none⟩ ⟨1, 0⟩,
    .define ⟨"b.c", .functionDef, "a", none⟩ ⟨2, 0⟩,
    .env ((Env.ofScope "a.b").bind ⟨"x", .imports, "a.b", none⟩),
    .define ⟨"c", .store, "a.b", none⟩ ⟨3, 0⟩, .env (.ofScope "a")]

/-- The id keeps the first definition and the places of all three. In `a.b` the name `c`
has its last definition, and the bindings of `a` are void. -/
theorem ofSteps_sharedId :
    let index := ofSteps sharedId
    index.defs.find? "a.b.c" = some ⟨"c", .param, "a.b", none⟩ ∧
      (index.locs.find? "a.b.c").getD [] =
        [⟨"a.b.c", ⟨1, 0⟩⟩, ⟨"a.b.c", ⟨2, 0⟩⟩, ⟨"a.b.c", ⟨3, 0⟩⟩] ∧
      index.symbol? "a.b" "c" = some ⟨"c", .store, "a.b", none⟩ ∧
      index.symbol? "a.b" "x" = some ⟨"x", .imports, "a.b", none⟩ ∧
      index.symbol? "a" "b.c" = none := by
  intro index
  have htells := ofSteps_tellsHistory sharedId
  refine ⟨(htells.defs_eq _).trans ?_, (htells.locs_eq _).trans ?_,
    (htells.symbol_eq _ _).trans ?_, (htells.symbol_eq _ _).trans ?_,
    (htells.symbol_eq _ _).trans ?_⟩
  · decide +kernel
  · decide +kernel
  · decide +kernel
  · decide +kernel
  · decide +kernel

end SymbolIndex

end TypeTrace

import Mathlib.Data.List.Perm.Subperm
import TypeTrace.Index.SymbolIndex

/-!
# The scopes around a scope

A name is looked up in a scope, then in the scope around it, and so on. The parents of the
scopes are ids that need not be registered, and they may lead back to a scope that was met
before. If they never do, every registered scope is met once at most, so the way out is a
chain no longer than the table of scopes.

Main results:

* `NeverRevisits.exists_chain`, `Chain.neverRevisits`: the way out ends if and only if it never
  comes back to a scope;
* `Chain.search?_eq`, `lookupWithin_of_search?`: a search along a chain takes as many steps at
  most as the chain is long;
* `lookup_nearest`: a lookup finds the nearest scope that binds the name.
-/

namespace TypeTrace.SymbolIndex

/-! ## The way out of a scope -/

/-- The id of the scope that is some steps further out. The way ends at a scope without a
parent and at an id that is not registered. -/
def outward? (index : SymbolIndex) : Nat → String → Option String
  | 0, scope => some scope
  | n + 1, scope => ((index.envs.find? scope).bind (·.parent)).bind (index.outward? n)

/-- No scope is met twice on the way out. -/
def NeverRevisits (index : SymbolIndex) (scope : String) : Prop :=
  ∀ m n id, index.outward? m scope = some id → index.outward? n scope = some id → m = n

/-- The registered scopes that are met on the way out, each under its id. -/
inductive Chain (index : SymbolIndex) : String → List (String × Env) → Prop
  | unregistered {scope : String} (hscope : index.envs.find? scope = none) : Chain index scope []
  | outermost {scope : String} {env : Env} (hscope : index.envs.find? scope = some env)
      (hparent : env.parent = none) : Chain index scope [(scope, env)]
  | inner {scope parent : String} {env : Env} {rest : List (String × Env)}
      (hscope : index.envs.find? scope = some env) (hparent : env.parent = some parent)
      (hrest : Chain index parent rest) : Chain index scope ((scope, env) :: rest)

variable {index : SymbolIndex} {scope parent name : String} {env : Env}
  {chain : List (String × Env)}

theorem outward?_succ (hscope : index.envs.find? scope = some env)
    (hparent : env.parent = some parent) (n : Nat) :
    index.outward? (n + 1) scope = index.outward? n parent := by
  rw [outward?, hscope, Option.bind_some, hparent, Option.bind_some]

theorem NeverRevisits.outer (h : index.NeverRevisits scope)
    (hscope : index.envs.find? scope = some env) (hparent : env.parent = some parent) :
    index.NeverRevisits parent := by
  intro m n id hm hn
  rw [← outward?_succ hscope hparent] at hm hn
  exact Nat.succ.inj (h (m + 1) (n + 1) id hm hn)

/-- The way out of the parent does not come back. -/
theorem NeverRevisits.outward?_ne (h : index.NeverRevisits scope)
    (hscope : index.envs.find? scope = some env) (hparent : env.parent = some parent) (n : Nat) :
    index.outward? n parent ≠ some scope := by
  rw [← outward?_succ hscope hparent]
  intro hback
  exact Nat.succ_ne_zero n (h (n + 1) 0 scope hback rfl)

/-! ## The way out ends -/

/-- The ids of the registered scopes that were passed on the way to a scope: all of them are
different and none lies ahead. -/
structure Passed (index : SymbolIndex) (seen : List String) (scope : String) : Prop where
  distinct : seen.Nodup
  registered : seen ⊆ index.envs.keys
  behind : ∀ n id, index.outward? n scope = some id → id ∉ seen

namespace Passed

variable {seen : List String}

theorem start (index : SymbolIndex) (scope : String) : index.Passed [] scope :=
  ⟨.nil, List.nil_subset _, fun _ _ _ => List.not_mem_nil⟩

theorem distinct_cons (h : index.Passed seen scope) : (scope :: seen).Nodup :=
  List.nodup_cons.2 ⟨h.behind 0 scope rfl, h.distinct⟩

theorem registered_cons (h : index.Passed seen scope)
    (hscope : index.envs.find? scope = some env) : scope :: seen ⊆ index.envs.keys :=
  List.cons_subset.2 ⟨(index.envs.mem_keys_iff scope).2 (hscope ▸ rfl), h.registered⟩

/-- A scope that is registered takes up a place in the table beside those that were passed. -/
theorem length_lt_size (h : index.Passed seen scope)
    (hscope : index.envs.find? scope = some env) : seen.length < index.envs.size := by
  have hlength := (h.distinct_cons.subperm (h.registered_cons hscope)).length_le
  rw [SortedMap.keys, List.length_map] at hlength
  exact hlength

theorem outer (h : index.Passed seen scope) (hnever : index.NeverRevisits scope)
    (hscope : index.envs.find? scope = some env) (hparent : env.parent = some parent) :
    index.Passed (scope :: seen) parent where
  distinct := h.distinct_cons
  registered := h.registered_cons hscope
  behind n id hid := by
    rw [List.mem_cons, not_or]
    constructor
    · rintro rfl
      exact hnever.outward?_ne hscope hparent n hid
    · rw [← outward?_succ hscope hparent] at hid
      exact h.behind (n + 1) id hid

/-- There are no more scopes ahead than places that are left in the table. -/
theorem exists_chain {steps : Nat} (h : index.Passed seen scope)
    (hnever : index.NeverRevisits scope) (hsteps : index.envs.size ≤ seen.length + steps) :
    ∃ chain, index.Chain scope chain ∧ chain.length ≤ steps := by
  induction steps generalizing scope seen with
  | zero =>
      cases hscope : index.envs.find? scope with
      | none => exact ⟨[], .unregistered hscope, Nat.le_refl 0⟩
      | some env => exact absurd (h.length_lt_size hscope) (Nat.not_lt_of_le hsteps)
  | succ steps ih =>
      cases hscope : index.envs.find? scope with
      | none => exact ⟨[], .unregistered hscope, Nat.zero_le _⟩
      | some env =>
          cases hparent : env.parent with
          | none => exact ⟨_, .outermost hscope hparent, Nat.succ_le_succ (Nat.zero_le steps)⟩
          | some parent =>
              have hroom : index.envs.size ≤ (scope :: seen).length + steps := by
                rw [List.length_cons]
                omega
              rcases ih (h.outer hnever hscope hparent) (hnever.outer hscope hparent) hroom with
                ⟨rest, hrest, hlength⟩
              exact ⟨_, .inner hscope hparent hrest, Nat.succ_le_succ hlength⟩

end Passed

/-- A way out that does not come back is no longer than the table of scopes. -/
theorem NeverRevisits.exists_chain (h : index.NeverRevisits scope) :
    ∃ chain, index.Chain scope chain ∧ chain.length ≤ index.envs.size :=
  (Passed.start index scope).exists_chain h (Nat.le_add_left _ _)

namespace Chain

theorem unique {chain' : List (String × Env)} (h : index.Chain scope chain)
    (h' : index.Chain scope chain') : chain = chain' := by
  induction h generalizing chain' with
  | unregistered hscope =>
      cases h' with
      | unregistered => rfl
      | outermost hscope' | inner hscope' => exact nomatch hscope.symm.trans hscope'
  | outermost hscope hparent =>
      cases h' with
      | unregistered hscope' => exact nomatch hscope'.symm.trans hscope
      | outermost hscope' =>
          rcases Option.some.inj (hscope.symm.trans hscope') with rfl
          rfl
      | inner hscope' hparent' =>
          rcases Option.some.inj (hscope.symm.trans hscope') with rfl
          exact nomatch hparent.symm.trans hparent'
  | inner hscope hparent hrest ih =>
      cases h' with
      | unregistered hscope' => exact nomatch hscope'.symm.trans hscope
      | outermost hscope' hparent' =>
          rcases Option.some.inj (hscope.symm.trans hscope') with rfl
          exact nomatch hparent'.symm.trans hparent
      | inner hscope' hparent' hrest' =>
          rcases Option.some.inj (hscope.symm.trans hscope') with rfl
          rcases Option.some.inj (hparent.symm.trans hparent') with rfl
          rw [ih hrest']

/-- Every step out leaves one scope less ahead. -/
theorem exists_rest (h : index.Chain scope chain) {n : Nat} {id : String}
    (hid : index.outward? n scope = some id) :
    ∃ rest, index.Chain id rest ∧ rest.length + n = chain.length := by
  induction n generalizing scope chain with
  | zero =>
      rcases Option.some.inj hid with rfl
      exact ⟨chain, h, rfl⟩
  | succ n ih =>
      cases h with
      | unregistered hscope =>
          rw [outward?, hscope] at hid
          exact nomatch hid
      | outermost hscope hparent =>
          rw [outward?, hscope, Option.bind_some, hparent] at hid
          exact nomatch hid
      | inner hscope hparent hrest =>
          rw [outward?_succ hscope hparent] at hid
          rcases ih hrest hid with ⟨rest, hchain, hlength⟩
          exact ⟨rest, hchain, congrArg Nat.succ hlength⟩

/-- A way out that ends does not come back. -/
theorem neverRevisits (h : index.Chain scope chain) : index.NeverRevisits scope := by
  intro m n id hm hn
  rcases h.exists_rest hm with ⟨rest, hrest, hlength⟩
  rcases h.exists_rest hn with ⟨rest', hrest', hlength'⟩
  rw [hrest.unique hrest'] at hlength
  exact Nat.add_left_cancel (hlength.trans hlength'.symm)

end Chain

/-! ## Searching along the way -/

/-- The first binding of a name on a chain, with the scope that has it. -/
def firstBinding? (name : String) (chain : List (String × Env)) : Option (Env × Definition) :=
  chain.findSome? fun e => (e.2.find? name).map (e.2, ·)

theorem firstBinding?_eq_some_iff {d : Definition} :
    firstBinding? name chain = some (env, d) ↔
      ∃ before id after, chain = before ++ (id, env) :: after ∧
        (∀ e ∈ before, e.2.find? name = none) ∧ env.find? name = some d := by
  unfold firstBinding?
  rw [List.findSome?_eq_some_iff]
  constructor
  · rintro ⟨before, ⟨id, found⟩, after, hchain, hfound, hbefore⟩
    rcases Option.map_eq_some_iff.1 hfound with ⟨d', hd, ⟨⟩⟩
    exact ⟨before, id, after, hchain, fun e he => Option.map_eq_none_iff.1 (hbefore e he), hd⟩
  · rintro ⟨before, id, after, hchain, hbefore, hd⟩
    exact ⟨before, (id, env), after, hchain, Option.map_eq_some_iff.2 ⟨d, hd, rfl⟩,
      fun e he => Option.map_eq_none_iff.2 (hbefore e he)⟩

theorem firstBinding?_eq_none_iff :
    firstBinding? name chain = none ↔ ∀ e ∈ chain, e.2.find? name = none := by
  unfold firstBinding?
  simp only [List.findSome?_eq_none_iff, Option.map_eq_none_iff]

/-- Searches for a name in a scope and in the scopes around it, one scope in each step, until
a scope has it or there is none left. Gives nothing if the steps do not suffice. -/
def search? (index : SymbolIndex) (name : String) :
    Nat → Option Env → Option (Option (Env × Definition))
  | _, none => some none
  | 0, some _ => none
  | steps + 1, some env =>
    match env.find? name with
    | some d => some (some (env, d))
    | none => index.search? name steps (env.parent.bind index.envs.find?)

theorem firstBinding?_cons (name id : String) (env : Env) (rest : List (String × Env)) :
    firstBinding? name ((id, env) :: rest) =
      match env.find? name with
      | some d => some (env, d)
      | none => firstBinding? name rest := by
  unfold firstBinding?
  rw [List.findSome?_cons]
  cases env.find? name <;> rfl

/-- A search ends within as many steps as the chain is long. -/
theorem Chain.search?_eq (h : index.Chain scope chain) (name : String) {steps : Nat}
    (hsteps : chain.length ≤ steps) :
    index.search? name steps (index.envs.find? scope) = some (firstBinding? name chain) := by
  induction h generalizing steps with
  | unregistered hscope =>
      rw [hscope, search?]
      rfl
  | outermost hscope hparent =>
      cases steps with
      | zero => exact absurd hsteps (Nat.not_succ_le_zero 0)
      | succ steps =>
          rw [hscope, search?, firstBinding?_cons, hparent]
          split
          · rfl
          · rw [Option.bind_none, search?]
            rfl
  | inner hscope hparent hrest ih =>
      cases steps with
      | zero => exact absurd hsteps (Nat.not_succ_le_zero _)
      | succ steps =>
          rw [hscope, search?, firstBinding?_cons, hparent, Option.bind_some,
            ih (Nat.le_of_succ_le_succ hsteps)]
          split <;> rfl

/-- A lookup that is cut off after some steps gives what the search gives in these steps. -/
theorem lookupWithin_of_search? {steps : Nat} {answer : Option (Env × Definition)}
    (h : index.search? name steps (index.envs.find? scope) = some answer) :
    index.lookupWithin name steps scope = answer := by
  induction steps generalizing scope with
  | zero =>
      cases hscope : index.envs.find? scope with
      | none =>
          rw [hscope, search?] at h
          exact Option.some.inj h
      | some env =>
          rw [hscope, search?] at h
          exact nomatch h
  | succ steps ih =>
      rw [lookupWithin]
      cases hscope : index.envs.find? scope with
      | none =>
          rw [hscope, search?] at h
          exact Option.some.inj h
      | some env =>
          rw [hscope, search?] at h
          dsimp only
          cases hname : env.find? name with
          | some d =>
              rw [hname] at h
              exact Option.some.inj h
          | none =>
              rw [hname] at h
              cases hparent : env.parent with
              | none =>
                  rw [hparent, Option.bind_none, search?] at h
                  exact Option.some.inj h
              | some parent =>
                  rw [hparent, Option.bind_some] at h
                  exact ih h

/-- A way out that never comes back to a scope is a chain no longer than the table of scopes.
The search along it ends within its length and finds the nearest scope that binds the name,
or nothing if no scope on the chain does, and a lookup is this search. -/
theorem lookup_nearest (h : index.NeverRevisits scope) (name : String) :
    ∃ chain, index.Chain scope chain ∧ chain.length ≤ index.envs.size ∧
      (∀ steps, chain.length ≤ steps →
        index.search? name steps (index.envs.find? scope) = some (index.lookup scope name)) ∧
      (∀ env d, index.lookup scope name = some (env, d) ↔
        ∃ before id after, chain = before ++ (id, env) :: after ∧
          (∀ e ∈ before, e.2.find? name = none) ∧ env.find? name = some d) ∧
      (index.lookup scope name = none ↔ ∀ e ∈ chain, e.2.find? name = none) := by
  rcases h.exists_chain with ⟨chain, hchain, hlength⟩
  have hlookup : index.lookup scope name = firstBinding? name chain :=
    lookupWithin_of_search? (hchain.search?_eq name hlength)
  rw [hlookup]
  exact ⟨chain, hchain, hlength, fun steps => hchain.search?_eq name,
    fun env d => firstBinding?_eq_some_iff, firstBinding?_eq_none_iff⟩

/-- A method with its class and its module. The class is kept under another id than the one
it says, and the parent of the module is not registered. -/
def nestedScopes : List (String × Env) :=
  [("module.A.f", ⟨"module.A.f", some "module.A", .empty, none⟩),
    ("module.A", ⟨"A", some "module", .ofList [("x", ⟨"x", .store, "A", none⟩)], none⟩),
    ("module", ⟨"module", some "builtins", .ofList [("x", ⟨"x", .imports, "module", none⟩)], none⟩)]

/-- The name `x` is found in the class before the module is reached, and `len` is not found. -/
theorem lookup_nestedScopes :
    let index := { empty with envs := .ofList nestedScopes }
    index.NeverRevisits "module.A.f" ∧
      (∃ env, nestedScopes[1]? = some ("module.A", env) ∧
        index.lookup "module.A.f" "x" = some (env, ⟨"x", .store, "A", none⟩)) ∧
      index.lookup "module.A.f" "len" = none := by
  intro index
  have hchain : index.Chain "module.A.f" nestedScopes :=
    .inner (by decide +kernel) rfl (.inner (by decide +kernel) rfl
      (.inner (by decide +kernel) rfl (.unregistered (by decide +kernel))))
  have hnever := hchain.neverRevisits
  refine ⟨hnever, ⟨_, rfl, ?_⟩, ?_⟩
  · rcases lookup_nearest hnever "x" with ⟨chain, hchain', -, -, hsome, -⟩
    rcases hchain.unique hchain' with rfl
    refine (hsome _ _).2 ⟨[nestedScopes[0]], "module.A", [nestedScopes[2]], rfl, ?_, ?_⟩
    · decide +kernel
    · decide +kernel
  · rcases lookup_nearest hnever "len" with ⟨chain, hchain', -, -, -, hnone⟩
    rcases hchain.unique hchain' with rfl
    refine hnone.2 ?_
    decide +kernel

end TypeTrace.SymbolIndex

import TypeTrace.Proofs.CallTargets
import TypeTrace.Proofs.Visits

/-!
# What a visit asks for

The requests of a visited node. All of them ask on one line, and their answers are
recorded on the line of the node. Each has the operations of one group, and apart from
constants it asks by the names that go with the group. Since groups are disjoint but
for those that store names, a request tells which group it comes from.

Main results:

* `OpGroup.eq_of_mem_ops`: only groups that store names share operations;
* `Visit.length_requests`: how many requests a node makes;
* `Visit.of_mem_requests`: what is known of each of them;
* `Visit.requests_eq_due`: the requests of each kind of node, written out;
* `Aligner.requested_congr`: the requests of a tree do not depend on any trace.
-/

namespace TypeTrace

/-! ## Groups of operations -/

namespace OpGroup

theorem mem_all (g : OpGroup) : g ∈ all := by
  cases g <;> decide

/-- Does the group bind a name by storing it? -/
def storesName : OpGroup → Bool
  | stores | boundImports => true
  | _ => false

/-- Only groups that store names share operations. -/
theorem eq_of_mem_ops {g g' : OpGroup} {op : Opcode} (hg : g.storesName = false)
    (h : op ∈ g.ops) (h' : op ∈ g'.ops) : g' = g := by
  have hall : ∀ g ∈ all, g.storesName = false → ∀ g' ∈ all, ∀ op ∈ g.ops,
      op ∈ g'.ops → g' = g := by
    decide
  exact hall g g.mem_all hg g' g'.mem_all op h h'

/-- Groups differ in their operations. -/
theorem ops_injective {g g' : OpGroup} (h : g.ops = g'.ops) : g = g' := by
  have hall : ∀ g ∈ all, ∀ g' ∈ all, g.ops = g'.ops → g = g' := by
    decide
  exact hall g g.mem_all g' g'.mem_all h

/-- The names that nodes give with a group: one name, or the methods of subscripts. -/
def GoesBy (g : OpGroup) (names : List String) : Prop :=
  if g = subscripts then names = subscriptMethods else ∃ name, names = [name]

/-- Two lists of names for one group that share a name are the same. -/
theorem GoesBy.eq_of_mem {g : OpGroup} {names names' : List String} {name : String}
    (h : g.GoesBy names) (h' : g.GoesBy names') (hname : name ∈ names) (hname' : name ∈ names') :
    names = names' := by
  unfold GoesBy at h h'
  by_cases hg : g = subscripts
  · rw [if_pos hg] at h h'
    exact h.trans h'.symm
  · rw [if_neg hg] at h h'
    rcases h with ⟨first, rfl⟩
    rcases h' with ⟨second, rfl⟩
    rw [← List.mem_singleton.1 hname, ← List.mem_singleton.1 hname']

end OpGroup

/-! ## Nodes and locations -/

/-- Is the node a name? -/
def NodeKind.isName {α : Type} : NodeKind α → Bool
  | .name .. => true
  | _ => false

/-- The number of requests that a node makes. -/
def NodeKind.requestCount {α : Type} : NodeKind α → Nat
  | .attr .. | .call .. | .constant _ | .subscript .. => 1
  | .name _ .load | .name _ .store => 1
  | .imports names | .importFrom _ names _ => names.length
  | _ => 0

theorem Store.line_attributeLocation (store : Store) (name : String) (loc : Location) :
    (store.attributeLocation name loc).line = loc.line := by
  unfold attributeLocation
  dsimp only
  split <;> rfl

theorem Store.line_importLocation (store : Store) (name : String) (loc : Location) :
    (store.importLocation name loc).line = loc.line := by
  unfold importLocation
  split <;> rfl

/-! ## The requests of a visit -/

/-- The line on which the requests of a visit ask. -/
def Visit.line (v : Visit) : UInt32 := if v.node.kind.isName then v.nameLine else v.node.line

/-- What is known of a request that a visit makes. -/
structure PlacedRequest.AskedBy (r : PlacedRequest) (v : Visit) : Prop where
  line_eq : r.request.line = v.line
  location_line : r.location.line = v.node.line
  group : ∃ g : OpGroup, r.request.ops = g.ops ∧
    (g = .constants ∨ ∃ names, g.GoesBy names ∧ r.request.symbols = names.map .str)

/-- A request by one name has what is known of requests. -/
theorem PlacedRequest.AskedBy.of_name {r : PlacedRequest} {v : Visit} {g : OpGroup}
    {name : String} (hrequest : r.request = ⟨v.line, g.ops, [.str name]⟩)
    (hlocation : r.location.line = v.node.line) (hg : g ≠ .subscripts) : r.AskedBy v := by
  have hgoes : g.GoesBy [name] := by
    unfold OpGroup.GoesBy
    rw [if_neg hg]
    exact ⟨name, rfl⟩
  refine ⟨?_, hlocation, g, ?_, .inr ⟨[name], hgoes, ?_⟩⟩ <;> rw [hrequest]
  rfl

namespace Visit

theorem length_requests (store : Store) (v : Visit) :
    (v.requests store).length = v.node.kind.requestCount := by
  rcases v with ⟨⟨kind, location⟩, nameLine⟩
  cases kind with
  | name id ctx => cases ctx <;> rfl
  | imports names => exact List.length_map ..
  | importFrom source names level => exact List.length_map ..
  | _ => rfl

/-- The request for an imported name asks by that name. -/
theorem askedBy_importRequest (store : Store) {v : Visit} (hname : v.node.kind.isName = false)
    (fromModule : Bool) (a : Alias) : (v.node.importRequest store fromModule a).AskedBy v := by
  have hline : v.line = v.node.line := by
    unfold line
    rw [hname, if_neg Bool.false_ne_true]
  have hrequest : (v.node.importRequest store fromModule a).request =
      ⟨v.line, (if a.asName.isSome || fromModule then OpGroup.boundImports else .plainImports).ops,
        [.str a.boundName]⟩ := by
    rw [hline]
    rfl
  refine .of_name hrequest (store.line_importLocation a.boundName v.node.location) ?_
  split <;> decide

theorem of_mem_requests {store : Store} {v : Visit} {r : PlacedRequest}
    (h : r ∈ v.requests store) : r.AskedBy v := by
  rcases v with ⟨⟨kind, location⟩, nameLine⟩
  cases kind with
  | attr value name ctx =>
      rw [List.mem_singleton.1 h]
      exact .of_name (g := .attributes) rfl (store.line_attributeLocation name location) (by decide)
  | call func args keywords =>
      rw [List.mem_singleton.1 h]
      exact .of_name (g := .calls) rfl rfl (by decide)
  | constant value =>
      rw [List.mem_singleton.1 h]
      exact ⟨rfl, rfl, .constants, rfl, .inl rfl⟩
  | subscript value index ctx =>
      rw [List.mem_singleton.1 h]
      exact ⟨rfl, rfl, .subscripts, rfl, .inr ⟨subscriptMethods, rfl, rfl⟩⟩
  | name id ctx =>
      cases ctx with
      | load =>
          rw [List.mem_singleton.1 h]
          exact .of_name (g := .loads) rfl rfl (by decide)
      | store =>
          rw [List.mem_singleton.1 h]
          exact .of_name (g := .stores) rfl rfl (by decide)
      | del => exact absurd h List.not_mem_nil
      | param => exact absurd h List.not_mem_nil
  | imports names =>
      rcases List.mem_map.1 h with ⟨a, -, rfl⟩
      exact askedBy_importRequest store (v := ⟨.mk (.imports names) location, nameLine⟩) rfl false a
  | importFrom source names level =>
      rcases List.mem_map.1 h with ⟨a, -, rfl⟩
      exact askedBy_importRequest store
        (v := ⟨.mk (.importFrom source names level) location, nameLine⟩) rfl true a
  | _ => exact absurd h List.not_mem_nil

end Visit

/-! ## The requests of each kind of node -/

/-- A request for the operations of a group on a line, to be recorded at a place. -/
def PlacedRequest.ofGroup (line : UInt32) (g : OpGroup) (symbols : List Literal)
    (location : Location) : PlacedRequest :=
  { request := { line, ops := g.ops, symbols }, location }

/-- What is due for a name of a plain import. It is asked for as an import if it keeps its
name, and as a name that is stored if not. -/
def Alias.plainDue (store : Store) (location : Location) (a : Alias) : PlacedRequest :=
  match a.asName with
  | none =>
    .ofGroup location.line .plainImports [.str a.name] (store.importLocation a.name location)
  | some bound =>
    .ofGroup location.line .boundImports [.str bound] (store.importLocation bound location)

/-- What is due for a name that is imported from a module. It is asked for as a name that is
stored, whether it keeps its name or not. -/
def Alias.fromDue (store : Store) (location : Location) (a : Alias) : PlacedRequest :=
  let bound := a.asName.getD a.name
  .ofGroup location.line .boundImports [.str bound] (store.importLocation bound location)

namespace Visit

/-- What is due at a visit, one kind of node after the other. Names that are loaded or stored
ask on the line of the visit, and all else asks on the line of its node. -/
def due (store : Store) (v : Visit) : List PlacedRequest :=
  let line := v.node.line
  let location := v.node.location
  match v.node.kind with
  | .attr _ name _ =>
    [.ofGroup line .attributes [.str name] (store.attributeLocation name location)]
  | .call func _ _ => [.ofGroup line .calls [.str (lastSegment func.head)] location]
  | .constant value => [.ofGroup line .constants [value] location]
  | .name id .load => [.ofGroup v.nameLine .loads [.str id] location]
  | .name id .store => [.ofGroup v.nameLine .stores [.str id] location]
  | .subscript .. =>
    [.ofGroup line .subscripts [.str "__getitem__", .str "__getslice__"] location]
  | .imports names => names.map (·.plainDue store location)
  | .importFrom _ names _ => names.map (·.fromDue store location)
  | _ => []

/-- A visit asks for what is due. -/
theorem requests_eq_due : requests = due := by
  funext store ⟨⟨kind, location⟩, nameLine⟩
  cases kind with
  | call func args keywords =>
      -- The rule asks by the dotted name of the call, whose last segment is that of the head.
      have hname := (Node.mk (.call func args keywords) location).lastSegment_dottedName
      have hrequests : requests store ⟨.mk (.call func args keywords) location, nameLine⟩ =
          [.ofGroup location.line .calls
            [.str (lastSegment (Node.mk (.call func args keywords) location).dottedName)]
            location] := rfl
      rw [hrequests, hname]
      rfl
  | name id ctx => cases ctx <;> rfl
  | imports | importFrom =>
      refine List.map_congr_left fun a _ => ?_
      rcases a with ⟨name, _ | bound⟩ <;> rfl
  | _ => rfl

/-- As many requests are due at a visit as the kind of its node says. -/
theorem length_due (store : Store) (v : Visit) :
    (v.due store).length = v.node.kind.requestCount := by
  rw [← requests_eq_due]
  exact v.length_requests store

/-- What is known of a request that is due. -/
theorem of_mem_due {store : Store} {v : Visit} {r : PlacedRequest} (h : r ∈ v.due store) :
    r.AskedBy v := by
  rw [← requests_eq_due] at h
  exact of_mem_requests h

end Visit

/-! ## What requests depend on -/

section SameText

variable {store store' : Store}

/-- Where an attribute stands is read off the text alone. -/
theorem Store.attributeLocation_congr (h : store.lines = store'.lines) (name : String)
    (loc : Location) : store.attributeLocation name loc = store'.attributeLocation name loc := by
  unfold attributeLocation line?
  rw [h]

/-- Where an imported name stands is read off the text alone. -/
theorem Store.importLocation_congr (h : store.lines = store'.lines) (name : String)
    (loc : Location) : store.importLocation name loc = store'.importLocation name loc := by
  unfold importLocation importColumn? line?
  rw [h]

/-- Over one text a visit makes the same requests, whatever was traced. -/
theorem Visit.requests_congr (h : store.lines = store'.lines) (v : Visit) :
    v.requests store = v.requests store' := by
  have himport : Node.importRequest store = Node.importRequest store' := by
    funext n fromModule a
    unfold Node.importRequest
    rw [Store.importLocation_congr h]
  unfold Visit.requests Node.requests?
  simp only [Store.attributeLocation_congr h, himport]

end SameText

namespace Aligner

variable {a a' : Aligner}

/-- How the skew moves depends on the version alone. -/
theorem skewAfter_congr (h : a.version = a'.version) : a.skewAfter = a'.skewAfter := by
  funext c s
  cases c with
  | visit n =>
      unfold skewAfter targetLine?
      rw [h]
  | _ => rfl

theorem visits_congr (h : a.version = a'.version) (calls : List Callback) (s : Skew) :
    a.visits calls s = a'.visits calls s := by
  induction calls generalizing s with
  | nil => rfl
  | cons c calls ih =>
      have hvisit : a.visitAt c s = a'.visitAt c s := by
        cases c with
        | visit n =>
            unfold visitAt
            rw [skewAfter_congr h]
        | _ => rfl
      rw [visits_cons, visits_cons, hvisit, skewAfter_congr h, ih]

/-- The requests of a tree depend on the text and on the version, and on no trace. -/
theorem requested_congr (hversion : a.version = a'.version)
    (hlines : a.store.lines = a'.store.lines) (n : Node) : a.requested n = a'.requested n := by
  unfold requested
  rw [visits_congr hversion]
  exact List.flatMap_congr fun v _ => v.requests_congr hlines

end Aligner

end TypeTrace

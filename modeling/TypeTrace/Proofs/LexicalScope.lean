import TypeTrace.Proofs.Requests

/-!
# The skew is lexical

The two fields of a traversal that move along while a tree is walked stand for a
lexical notion: whether a node lies in a target of an assignment, and on which line
the value of that assignment ends. This holds for every tree in which no assignment
lies in a target of another one. Such a tree is aligned by serving what is due at
its nodes, listed without any state.

Main results:

* `visits_of_assignFree`: in a tree without assignments the skew stays as it is;
* `visits_of_targetsAssignFree`: outside of targets the visits are the lexical ones;
* `align_eq_serve_due`: the alignment of a tree from its lexical visits;
* `align_eq_serve_lexical`: the same with what is known of these visits.
-/

namespace TypeTrace

/-! ## Trees without assignments in targets -/

theorem NodeKind.targets_eq_nil {α : Type} {k : NodeKind α} (h : k.isAssign = false) :
    k.targets = [] := by
  cases k with
  | assign targets value => exact absurd h (by simp [isAssign])
  | _ => rfl

namespace Node

/-- No node of the tree is an assignment. -/
def AssignFree (n : Node) : Prop := ∀ m ∈ n.nodes, m.kind.isAssign = false

/-- No assignment of the tree has an assignment in one of its targets. -/
def TargetsAssignFree (n : Node) : Prop := ∀ m ∈ n.nodes, ∀ t ∈ m.kind.targets, t.AssignFree

instance (n : Node) : Decidable n.AssignFree :=
  inferInstanceAs (Decidable (∀ m ∈ n.nodes, m.kind.isAssign = false))

instance (n : Node) : Decidable n.TargetsAssignFree :=
  inferInstanceAs (Decidable (∀ m ∈ n.nodes, ∀ t ∈ m.kind.targets, t.AssignFree))

theorem AssignFree.child {n c : Node} (h : n.AssignFree) (hc : c ∈ n.children) : c.AssignFree :=
  fun m hm => h m (mem_nodes_of_mem_children hc hm)

theorem TargetsAssignFree.child {n c : Node} (h : n.TargetsAssignFree) (hc : c ∈ n.children) :
    c.TargetsAssignFree :=
  fun m hm => h m (mem_nodes_of_mem_children hc hm)

end Node

/-! ## Visits without a state -/

namespace Aligner

/-- The visits of a tree, each node before the nodes below it. Names ask on
`targetLine` if there is one. It is passed down from a node to its children, and an
assignment replaces it for its targets. -/
def lexicalVisits (a : Aligner) (targetLine : Option UInt32) (n : Node) : List Visit :=
  { node := n, nameLine := targetLine.getD n.line } ::
    ((n.kind.targets.attach.flatMap fun t => lexicalVisits a (a.targetLine? n) t.1) ++
      n.kind.others.attach.flatMap fun c => lexicalVisits a targetLine c.1)
termination_by sizeOf n
decreasing_by
  · exact Node.sizeOf_lt_of_mem_children (List.mem_append_left _ t.2)
  · exact Node.sizeOf_lt_of_mem_children (List.mem_append_right _ c.2)

theorem lexicalVisits_eq (a : Aligner) (targetLine : Option UInt32) (n : Node) :
    a.lexicalVisits targetLine n =
      { node := n, nameLine := targetLine.getD n.line } ::
        (n.kind.targets.flatMap (a.lexicalVisits (a.targetLine? n)) ++
          n.kind.others.flatMap (a.lexicalVisits targetLine)) := by
  rw [lexicalVisits]
  rw [List.flatMap_subtype (g := a.lexicalVisits (a.targetLine? n)) (fun _ _ => rfl),
    List.flatMap_subtype (g := a.lexicalVisits targetLine) (fun _ _ => rfl),
    List.unattach_attach, List.unattach_attach]

/-- The lexical visits are those of the nodes of the tree, in order. -/
theorem map_node_lexicalVisits (a : Aligner) (targetLine : Option UInt32) (n : Node) :
    (a.lexicalVisits targetLine n).map (·.node) = n.nodes := by
  induction n using Node.induct generalizing targetLine with
  | step n ih =>
      have hlist : ∀ (line : Option UInt32) (cs : List Node), (∀ c ∈ cs, c ∈ n.children) →
          (cs.flatMap (a.lexicalVisits line)).map (·.node) = cs.flatMap Node.nodes := by
        intro line cs hcs
        rw [List.map_flatMap]
        exact List.flatMap_congr fun c hc => ih c (hcs c hc) line
      rw [lexicalVisits_eq, Node.nodes_eq, List.map_cons, List.map_append,
        hlist _ _ fun t => List.mem_append_left _, hlist _ _ fun c => List.mem_append_right _,
        ← List.flatMap_append]
      rfl

/-! ## The state and the scope -/

/-- If each part of a walk keeps a property of the skew and makes certain visits, all
parts together do. -/
theorem visits_flatMap {a : Aligner} {P : Skew → Prop} {f : Node → List Callback}
    {g : Node → List Visit} (nodes : List Node)
    (h : ∀ c ∈ nodes, ∀ s, P s → P (a.skewAfterAll (f c) s) ∧ a.visits (f c) s = g c)
    {s : Skew} (hs : P s) :
    P (a.skewAfterAll (nodes.flatMap f) s) ∧ a.visits (nodes.flatMap f) s = nodes.flatMap g := by
  induction nodes generalizing s with
  | nil => exact ⟨hs, rfl⟩
  | cons c nodes ih =>
      rcases h c List.mem_cons_self s hs with ⟨hfirst, hvisits⟩
      rcases ih (fun d hd => h d (List.mem_cons_of_mem _ hd)) hfirst with ⟨hrest, hvisits'⟩
      rw [List.flatMap_cons, skewAfterAll_append, visits_append, hvisits, hvisits']
      exact ⟨hrest, rfl⟩

theorem targetLine?_eq_none {n : Node} (h : n.kind.isAssign = false) (a : Aligner) :
    a.targetLine? n = none := by
  rcases n with ⟨kind, location⟩
  cases kind with
  | assign targets value => exact absurd h (by simp [NodeKind.isAssign, Node.kind])
  | _ => rfl

/-- In a tree without assignments the skew stays as it is, and the names ask on the
line that it gives. -/
theorem visits_of_assignFree (a : Aligner) {n : Node} (h : n.AssignFree) (s : Skew) :
    a.skewAfterAll n.calls s = s ∧ a.visits n.calls s = a.lexicalVisits s.targetLine n := by
  induction n using Node.induct with
  | step n ih =>
      have hplain : n.kind.isAssign = false := h n n.mem_nodes_self
      have hvisit : a.skewAfter (.visit n) s = s := by
        dsimp only [skewAfter]
        rw [targetLine?_eq_none hplain, Option.none_or]
      have hleave : a.skewAfter (.leave n) s = s := by
        dsimp only [skewAfter]
        rw [hplain, if_neg Bool.false_ne_true]
      obtain ⟨hskew, hvisits⟩ := visits_flatMap (a := a) (P := (· = s)) (f := Node.calls)
        (g := a.lexicalVisits s.targetLine) n.kind.others
        (fun c hc s' hs' => by
          have hchild : c ∈ n.children := List.mem_append_right _ hc
          rw [hs']
          exact ih c hchild (h.child hchild)) rfl
      have htargets := NodeKind.targets_eq_nil hplain
      rw [Node.calls_eq, lexicalVisits_eq, htargets, List.flatMap_nil, List.flatMap_nil,
        List.nil_append, List.nil_append]
      constructor
      · rw [skewAfterAll_cons, hvisit, skewAfterAll_append, hskew]
        exact hleave
      · rw [visits_cons, hvisit, visits_append, hvisits]
        dsimp only [visitAt]
        rw [hvisit, visits_cons, visits_nil, List.append_nil]
        exact congrArg _ (List.append_nil _)

end Aligner

/-- A place outside of targets. The line of an assignment whose value the place is in
can be left over there, if the version records one at all. -/
def Skew.Outside (version : PythonVersion) (s : Skew) : Prop :=
  s.inTarget = false ∧ (version.hasAssignLineSkew = false → s.endLine = none)

theorem Skew.Outside.targetLine_eq {version : PythonVersion} {s : Skew} (h : s.Outside version) :
    s.targetLine = none := by
  unfold targetLine
  rw [h.1, if_neg Bool.false_ne_true]

namespace Aligner

/-- Without the skew no node moves the names in its targets. -/
theorem targetLine?_of_noSkew {a : Aligner} (h : a.version.hasAssignLineSkew = false)
    (n : Node) : a.targetLine? n = none := by
  rcases n with ⟨kind, location⟩
  cases kind with
  | assign targets value =>
      dsimp only [targetLine?, Node.kind]
      rw [h, if_neg Bool.false_ne_true]
  | _ => rfl

/-- Entering an assignment sets the line for its targets, whatever was left over. -/
theorem endLine_of_isAssign {a : Aligner} {n : Node} {s : Skew} (hs : s.Outside a.version)
    (hassign : n.kind.isAssign = true) :
    (a.skewAfter (.visit n) s).endLine = a.targetLine? n := by
  dsimp only [skewAfter]
  cases hskew : a.version.hasAssignLineSkew with
  | true =>
      rcases n with ⟨kind, location⟩
      cases kind with
      | assign targets value =>
          dsimp only [targetLine?, Node.kind]
          rw [hskew, if_pos rfl, Option.some_or]
      | _ => exact absurd hassign Bool.false_ne_true
  | false => rw [targetLine?_of_noSkew hskew, hs.2 hskew, Option.none_or]

/-- Visiting a node outside of targets stays outside of them. -/
theorem outside_visit {a : Aligner} {s : Skew} (hs : s.Outside a.version) (n : Node) :
    (a.skewAfter (.visit n) s).Outside a.version := by
  refine ⟨hs.1, fun hskew => ?_⟩
  dsimp only [skewAfter]
  rw [targetLine?_of_noSkew hskew, hs.2 hskew, Option.none_or]

/-- Leaving a node outside of targets stays outside of them. -/
theorem outside_leave {a : Aligner} {s : Skew} (hs : s.Outside a.version) (n : Node) :
    (a.skewAfter (.leave n) s).Outside a.version := by
  refine ⟨hs.1, fun hskew => ?_⟩
  dsimp only [skewAfter]
  rw [hs.2 hskew, ite_self]

/-- A target without assignments gives the skew back as it was before, and the names
in it ask on the line that its assignment has set. -/
theorem visits_target {a : Aligner} {n t : Node} (ht : t.AssignFree) {s : Skew}
    (hs : s.inTarget = false) :
    let calls := .enterTarget n t :: (t.calls ++ [.leaveTarget n t])
    a.skewAfterAll calls s = s ∧ a.visits calls s = a.lexicalVisits s.endLine t := by
  intro calls
  rcases a.visits_of_assignFree ht { s with inTarget := true } with ⟨hskew, hvisits⟩
  have henter : a.skewAfter (.enterTarget n t) s = { s with inTarget := true } := rfl
  have hline : Skew.targetLine { s with inTarget := true } = s.endLine := rfl
  constructor
  · rw [skewAfterAll_cons, henter, skewAfterAll_append, hskew]
    rcases s with ⟨endLine, inTarget⟩
    rw [show inTarget = false from hs]
    rfl
  · rw [visits_cons, henter, visits_append, hvisits, hline]
    exact List.append_nil _

/-- Outside of targets a walk makes the lexical visits, and it ends outside of targets. -/
theorem visits_of_targetsAssignFree (a : Aligner) {n : Node} (h : n.TargetsAssignFree)
    {s : Skew} (hs : s.Outside a.version) :
    (a.skewAfterAll n.calls s).Outside a.version ∧ a.visits n.calls s = a.lexicalVisits none n := by
  induction n using Node.induct generalizing s with
  | step n ih =>
      have hentered := outside_visit hs n
      have hline : (a.skewAfter (.visit n) s).nameLine n.line = n.line := by
        unfold Skew.nameLine
        rw [hentered.targetLine_eq, Option.getD_none]
      -- The targets give the skew back, so each of them sees the line of this node.
      obtain ⟨htargets, htargetVisits⟩ := visits_flatMap (a := a)
        (P := (· = a.skewAfter (.visit n) s))
        (f := fun t => .enterTarget n t :: (t.calls ++ [.leaveTarget n t]))
        (g := a.lexicalVisits (a.targetLine? n)) n.kind.targets
        (fun t ht s' hs' => by
          have hfree := h n n.mem_nodes_self t ht
          have hassign : n.kind.isAssign = true := by
            by_contra hplain
            rw [Bool.not_eq_true] at hplain
            rw [NodeKind.targets_eq_nil hplain] at ht
            exact absurd ht List.not_mem_nil
          rw [hs', ← endLine_of_isAssign hs hassign]
          exact visits_target hfree hentered.1) rfl
      obtain ⟨hothers, hotherVisits⟩ := visits_flatMap (a := a) (P := Skew.Outside a.version)
        (f := Node.calls) (g := a.lexicalVisits none) n.kind.others
        (fun c hc s' hs' => by
          have hchild : c ∈ n.children := List.mem_append_right _ hc
          exact ih c hchild (h.child hchild) hs') hentered
      rw [Node.calls_eq, lexicalVisits_eq]
      constructor
      · rw [skewAfterAll_cons, skewAfterAll_append, skewAfterAll_append, htargets]
        exact outside_leave hothers n
      · rw [visits_cons, visits_append, visits_append, skewAfterAll_append, htargets,
          htargetVisits, hotherVisits]
        dsimp only [visitAt]
        rw [hline, visits_cons, visits_nil, List.append_nil]
        exact congrArg _ (List.append_nil _)

end Aligner

/-! ## Aligning from lexical visits -/

namespace Aligner

/-- The requests of a tree are those of its lexical visits. -/
theorem requested_eq_lexical (a : Aligner) {n : Node} (h : n.TargetsAssignFree) :
    a.requested n = (a.lexicalVisits none n).flatMap (Visit.requests a.store) := by
  have houtside : Skew.outside.Outside a.version := ⟨rfl, fun _ => rfl⟩
  unfold requested
  rw [(a.visits_of_targetsAssignFree h houtside).2]

/-- A tree without assignments in targets is aligned by serving what is due at its lexical
visits. -/
theorem align_eq_serve_due (a : Aligner) {n : Node} (h : n.TargetsAssignFree) :
    a.align n = .ok (serve a.store ((a.lexicalVisits none n).flatMap (Visit.due a.store))) := by
  rw [align_eq_serve, requested_eq_lexical a h, Visit.requests_eq_due]

/-- Before version 3.7 an assignment moves the names in its targets to the last line of
its value, and from then on to no other line. -/
theorem targetLine?_of_assign (a : Aligner) {n : Node} {targets : List Node} {value : Node}
    (h : n.kind = .assign targets value) :
    a.targetLine? n =
      if a.version.major < 3 ∨ a.version.major = 3 ∧ a.version.minor < 7 then some value.lastLine
      else none := by
  unfold targetLine?
  rw [h]
  simp only [PythonVersion.hasAssignLineSkew_iff]

/-- Aligning a tree without assignments in targets never fails, and it serves what is due
at the lexical visits. These are the nodes of the tree in order, and before version 3.7 an
assignment moves the names in its targets to the last line of its value. As many requests
are due at a node as its kind says, all on the line of the visit, and their answers are
recorded on the line of the node. -/
theorem align_eq_serve_lexical (a : Aligner) {n : Node} (h : n.TargetsAssignFree) :
    a.align n = .ok (serve a.store ((a.lexicalVisits none n).flatMap (Visit.due a.store))) ∧
      (a.lexicalVisits none n).map (·.node) = n.nodes ∧
      (∀ m ∈ n.nodes, ∀ targets value, m.kind = .assign targets value →
        a.targetLine? m =
          if a.version.major < 3 ∨ a.version.major = 3 ∧ a.version.minor < 7
          then some value.lastLine else none) ∧
      ∀ v ∈ a.lexicalVisits none n,
        (v.due a.store).length = v.node.kind.requestCount ∧
          ∀ r ∈ v.due a.store,
            r.request.line = v.line ∧ r.location.line = v.node.line := by
  refine ⟨a.align_eq_serve_due h, a.map_node_lexicalVisits none n,
    fun m _ targets value hm => a.targetLine?_of_assign hm, ?_⟩
  intro v _
  refine ⟨v.length_due a.store, fun r hr => ?_⟩
  have hasked := Visit.of_mem_due hr
  exact ⟨hasked.line_eq, hasked.location_line⟩

/-- Two imports and the assignment of a call over two lines, with another assignment among
the arguments, aligned for a version with the skew. Some traces go with no node, since only
their operations fit or only their symbols. -/
def nestedAssign : Aligner × Node :=
  ({ store := .ofTraces "import os, sys as s\nfrom q import p\no.a = m.f(t[0],\n1)"
      [(1, ⟨.importName, .str "sys", []⟩), (1, ⟨.importName, .str "os", []⟩),
        (1, ⟨.storeName, .str "s", []⟩), (2, ⟨.importName, .str "p", []⟩),
        (2, ⟨.storeName, .str "p", []⟩), (3, ⟨.loadName, .str "o", []⟩),
        (3, ⟨.loadName, .str "a", []⟩), (3, ⟨.loadName, .str "m", []⟩),
        (3, ⟨.loadAttr, .str "g", []⟩), (3, ⟨.loadAttr, .str "f", [.any]⟩),
        (3, ⟨.loadName, .str "t", []⟩), (3, ⟨.loadConst, .int 0, []⟩),
        (3, ⟨.binarySubscr, .str "__getitem__", []⟩), (3, ⟨.callMethod, .str "f", []⟩),
        (3, ⟨.storeAttr, .str "a", []⟩), (4, ⟨.loadConst, .bool true, []⟩),
        (4, ⟨.storeName, .str "y", []⟩), (4, ⟨.loadName, .str "o", []⟩)]
     version := ⟨3, 6⟩ },
    .ofBody
      [.mk (.imports [⟨"os", none⟩, ⟨"sys", some "s"⟩]) ⟨1, 0⟩,
        .mk (.importFrom (some "q") [⟨"p", none⟩] 0) ⟨2, 0⟩,
        .mk (.assign [.mk (.attr (.mk (.name "o" .load) ⟨3, 0⟩) "a" .store) ⟨3, 0⟩]
          (.mk (.call (.mk (.attr (.mk (.name "m" .load) ⟨3, 6⟩) "f" .load) ⟨3, 6⟩)
            [.mk (.subscript (.mk (.name "t" .load) ⟨3, 10⟩)
              (.mk (.constant (.int 0)) ⟨3, 12⟩) .load) ⟨3, 10⟩,
              .mk (.assign [.mk (.name "y" .store) ⟨3, 16⟩]
                (.mk (.constant (.int 1)) ⟨4, 0⟩)) ⟨3, 16⟩]
            []) ⟨3, 6⟩)) ⟨3, 0⟩])

/-- The names in both targets ask on the last line of their values, and all else asks on its
own line: the imports, the attributes, the call, the subscript, the constants and the other
names. The constant `1` gets a trace of `True`, which has the same value. -/
theorem align_nestedAssign :
    nestedAssign.2.TargetsAssignFree ∧
      nestedAssign.1.align nestedAssign.2 =
        .ok [⟨⟨⟨1, 1⟩, ⟨.importName, .str "os", []⟩⟩, ⟨1, 7⟩⟩,
          ⟨⟨⟨1, 2⟩, ⟨.storeName, .str "s", []⟩⟩, ⟨1, 11⟩⟩,
          ⟨⟨⟨2, 1⟩, ⟨.storeName, .str "p", []⟩⟩, ⟨2, 14⟩⟩,
          ⟨⟨⟨3, 9⟩, ⟨.storeAttr, .str "a", []⟩⟩, ⟨3, 2⟩⟩,
          ⟨⟨⟨4, 2⟩, ⟨.loadName, .str "o", []⟩⟩, ⟨3, 0⟩⟩,
          ⟨⟨⟨3, 8⟩, ⟨.callMethod, .str "f", []⟩⟩, ⟨3, 6⟩⟩,
          ⟨⟨⟨3, 4⟩, ⟨.loadAttr, .str "f", [.any]⟩⟩, ⟨3, 8⟩⟩,
          ⟨⟨⟨3, 2⟩, ⟨.loadName, .str "m", []⟩⟩, ⟨3, 6⟩⟩,
          ⟨⟨⟨3, 7⟩, ⟨.binarySubscr, .str "__getitem__", []⟩⟩, ⟨3, 10⟩⟩,
          ⟨⟨⟨3, 5⟩, ⟨.loadName, .str "t", []⟩⟩, ⟨3, 10⟩⟩,
          ⟨⟨⟨3, 6⟩, ⟨.loadConst, .int 0, []⟩⟩, ⟨3, 12⟩⟩,
          ⟨⟨⟨4, 1⟩, ⟨.storeName, .str "y", []⟩⟩, ⟨3, 16⟩⟩,
          ⟨⟨⟨4, 0⟩, ⟨.loadConst, .bool true, []⟩⟩, ⟨4, 0⟩⟩] := by
  have hfree : nestedAssign.2.TargetsAssignFree := by decide +kernel
  refine ⟨hfree, ?_⟩
  rw [(nestedAssign.1.align_eq_serve_lexical hfree).1]
  congr 1
  decide +kernel

end Aligner

end TypeTrace

import TypeTrace.Proofs.LexicalScope

/-!
# Versions that agree

The version of the language matters for names in targets only: it says whether they are
looked for on the last line of the assigned value or on their own line. Where these are
one line anyway, every name asks on its own line, in each version. So trees without
skewed names are aligned alike by all versions.

Main results:

* `Visit.requests_eq_own`: only names depend on the line that a visit gives them;
* `requests_lexicalVisits_of_skewFree`: the requests of a tree without skewed names;
* `align_eq_serve_own`: such a tree is aligned from the own lines of its nodes;
* `align_versions_agree`: any two versions align it alike.
-/

namespace TypeTrace

namespace Node

/-- All names of the tree stand on one line. -/
def NamesOn (line : UInt32) (n : Node) : Prop :=
  ∀ m ∈ n.nodes, m.kind.isName = true → m.line = line

/-- The last line of the value that a node assigns, if it assigns one. -/
def valueLine? (n : Node) : Option UInt32 :=
  match n.kind with
  | .assign _ value => some value.lastLine
  | _ => none

/-- The names in the targets of each assignment stand on the last line of the assigned
value. -/
def SkewFree (n : Node) : Prop :=
  ∀ m ∈ n.nodes, ∀ t ∈ m.kind.targets, ∀ name ∈ t.nodes,
    name.kind.isName = true → m.valueLine? = some name.line

instance (n : Node) : Decidable n.SkewFree :=
  inferInstanceAs
    (Decidable (∀ m ∈ n.nodes, ∀ t ∈ m.kind.targets, ∀ name ∈ t.nodes,
      name.kind.isName = true → m.valueLine? = some name.line))

theorem NamesOn.child {line : UInt32} {n c : Node} (h : n.NamesOn line) (hc : c ∈ n.children) :
    c.NamesOn line :=
  fun m hm => h m (mem_nodes_of_mem_children hc hm)

theorem SkewFree.child {n c : Node} (h : n.SkewFree) (hc : c ∈ n.children) : c.SkewFree :=
  fun m hm => h m (mem_nodes_of_mem_children hc hm)

end Node

/-! ## Requests on own lines -/

/-- The requests that a node makes if it is looked for on its own line. -/
def Node.ownRequests (store : Store) (n : Node) : List PlacedRequest :=
  Visit.requests store { node := n, nameLine := n.line }

/-- What is visited asks as it does on its own line, unless it is a name that is given
another one. -/
theorem Visit.requests_eq_own (store : Store) {n : Node} {nameLine : UInt32}
    (h : n.kind.isName = true → n.line = nameLine) :
    Visit.requests store ⟨n, nameLine⟩ = n.ownRequests store := by
  cases hname : n.kind.isName with
  | true =>
      rw [← h hname]
      rfl
  | false =>
      rcases n with ⟨kind, location⟩
      cases kind with
      | name id ctx => exact absurd hname (by simp [NodeKind.isName, Node.kind])
      | _ => rfl

namespace Aligner

/-- An assignment moves its targets, if at all, to the last line of its value. -/
theorem valueLine?_of_targetLine? {a : Aligner} {n : Node} {line : UInt32}
    (h : a.targetLine? n = some line) : n.valueLine? = some line := by
  rcases n with ⟨kind, location⟩
  cases kind with
  | assign targets value =>
      dsimp only [targetLine?, Node.kind] at h
      cases hskew : a.version.hasAssignLineSkew with
      | true =>
          rw [hskew, if_pos rfl] at h
          exact h
      | false =>
          rw [hskew, if_neg Bool.false_ne_true] at h
          exact absurd h.symm (Option.some_ne_none line)
  | _ => exact absurd h.symm (Option.some_ne_none line)

/-- In a tree without skewed names all nodes ask on their own lines, also below a target
whose names stand on the line that they are moved to. -/
theorem requests_lexicalVisits_of_skewFree (a : Aligner) (store : Store) {n : Node}
    (h : n.SkewFree) {targetLine : Option UInt32}
    (hline : ∀ line, targetLine = some line → n.NamesOn line) :
    (a.lexicalVisits targetLine n).flatMap (Visit.requests store) =
      n.nodes.flatMap (Node.ownRequests store) := by
  induction n using Node.induct generalizing targetLine with
  | step n ih =>
      have hself : Visit.requests store ⟨n, targetLine.getD n.line⟩ = n.ownRequests store := by
        refine Visit.requests_eq_own store fun hname => ?_
        cases targetLine with
        | none => rfl
        | some line => exact hline line rfl n n.mem_nodes_self hname
      have htargets : ∀ t ∈ n.kind.targets,
          (a.lexicalVisits (a.targetLine? n) t).flatMap (Visit.requests store) =
            t.nodes.flatMap (Node.ownRequests store) := by
        intro t ht
        have hchild : t ∈ n.children := List.mem_append_left _ ht
        refine ih t hchild (h.child hchild) fun line hmoved m hm hname => ?_
        have hvalue := h n n.mem_nodes_self t ht m hm hname
        rw [valueLine?_of_targetLine? hmoved] at hvalue
        exact (Option.some.inj hvalue).symm
      have hothers : ∀ c ∈ n.kind.others,
          (a.lexicalVisits targetLine c).flatMap (Visit.requests store) =
            c.nodes.flatMap (Node.ownRequests store) := by
        intro c hc
        have hchild : c ∈ n.children := List.mem_append_right _ hc
        exact ih c hchild (h.child hchild) fun line hmoved => (hline line hmoved).child hchild
      rw [lexicalVisits_eq, Node.nodes_eq, List.flatMap_cons, List.flatMap_cons, hself,
        List.flatMap_append, List.flatMap_assoc, List.flatMap_assoc, List.flatMap_assoc,
        List.flatMap_congr htargets, List.flatMap_congr hothers, ← List.flatMap_append]
      rfl

/-- A tree without skewed names is aligned by serving the requests of its nodes on their
own lines. -/
theorem align_eq_serve_own (a : Aligner) {n : Node} (hfree : n.TargetsAssignFree)
    (h : n.SkewFree) :
    a.align n = .ok (serve a.store (n.nodes.flatMap (Node.ownRequests a.store))) := by
  have houtside : ∀ line, (none : Option UInt32) = some line → n.NamesOn line :=
    fun line hline => absurd hline.symm (Option.some_ne_none line)
  rw [align_eq_serve, requested_eq_lexical a hfree,
    a.requests_lexicalVisits_of_skewFree a.store h houtside]

/-! ## Two versions -/

/-- Where no name is skewed, any two versions find the same records. -/
theorem align_versions_agree (store : Store) {n : Node} (hfree : n.TargetsAssignFree)
    (h : n.SkewFree) (version version' : PythonVersion) :
    ∃ records, (Aligner.mk store version).align n = .ok records ∧
      (Aligner.mk store version').align n = .ok records :=
  ⟨_, align_eq_serve_own ⟨store, version⟩ hfree h, align_eq_serve_own ⟨store, version'⟩ hfree h⟩

/-- The assignment `[0][i] = j = f(j = 1)` with the first bracket on a line of its own and
another assignment in place of the argument, and traces on both lines. -/
def namesOnValueLine : Store × Node :=
  (.ofTraces ""
    [(1, ⟨.loadConst, .int 0, []⟩), (2, ⟨.storeName, .str "j", []⟩),
      (2, ⟨.loadName, .str "f", []⟩), (2, ⟨.loadName, .str "i", []⟩),
      (2, ⟨.storeName, .str "j", []⟩)],
    .ofBody [.mk (.assign
      [.mk (.subscript (.mk (.list [.mk (.constant (.int 0)) ⟨1, 1⟩] .load) ⟨1, 0⟩)
          (.mk (.name "i" .load) ⟨2, 1⟩) .store) ⟨1, 0⟩,
        .mk (.name "j" .store) ⟨2, 6⟩]
      (.mk (.call (.mk (.name "f" .load) ⟨2, 10⟩)
        [.mk (.assign [.mk (.name "j" .store) ⟨2, 12⟩] (.mk (.constant (.int 1)) ⟨2, 16⟩)) ⟨2, 12⟩]
        []) ⟨2, 10⟩)) ⟨1, 0⟩])

/-- A version with the skew and one without it find the same records. -/
theorem align_namesOnValueLine :
    let (store, n) := namesOnValueLine
    n.TargetsAssignFree ∧ n.SkewFree ∧
      ∃ records, (Aligner.mk store ⟨3, 6⟩).align n = .ok records ∧
        (Aligner.mk store ⟨3, 7⟩).align n = .ok records ∧
        records.map (·.key) = [⟨1, 0⟩, ⟨2, 2⟩, ⟨2, 0⟩, ⟨2, 1⟩, ⟨2, 3⟩] := by
  have hfree : namesOnValueLine.2.TargetsAssignFree := by decide +kernel
  have hskew : namesOnValueLine.2.SkewFree := by decide +kernel
  obtain ⟨records, halign, halign'⟩ :=
    align_versions_agree namesOnValueLine.1 hfree hskew ⟨3, 6⟩ ⟨3, 7⟩
  refine ⟨hfree, hskew, records, halign, halign', ?_⟩
  rw [eq_serve_of_align halign]
  decide +kernel

end Aligner

end TypeTrace

import TypeTrace.Proofs.WalkLog

/-!
# Subtrees and their places

A form can be rebuilt over other subtrees, one for each place. The same subtrees give the
form back, and subtrees of another type give a form over that type, so no place can be left
out. What shows in a rebuilt form therefore says which subtrees a form has. A path of places
leads from a tree to each tree in it, and the tree at the end of a path can be replaced.

Main results:

* `NodeKind.mapIdx_id`, `NodeKind.children_mapIdx`: what a form is rebuilt to;
* `NodeKind.mapIdx_eq_mapIdx_iff`: only the children matter for it;
* `NodeKind.hasPart_iff`: the children of a form are all its subtrees;
* `within_iff_mem_nodes`, `within_iff_exists_subtreeAt?`: the nodes of a tree are the
  trees in it, and those at the ends of paths;
* `replaceAt_self`, `subtreeAt?_replaceAt`: a replacement changes what is at its path.
-/

namespace TypeTrace

section Forms

variable {α β : Type}

namespace Keyword

/-- The values of rebuilt named arguments. -/
theorem map_value_mapIdx (f : Nat → α → β) (l : List (Keyword α)) :
    (l.mapIdx fun i w => Keyword.mk w.arg (f i w.value)).map value = (l.map value).mapIdx f := by
  refine List.ext_getElem? fun i => ?_
  simp [Function.comp_def]

/-- Only the values matter for what named arguments are rebuilt to. -/
theorem mapIdx_eq_mapIdx_iff {f g : Nat → α → β} {l : List (Keyword α)} :
    (l.mapIdx fun i w => Keyword.mk w.arg (f i w.value)) =
        (l.mapIdx fun i w => Keyword.mk w.arg (g i w.value)) ↔
      (l.map value).mapIdx f = (l.map value).mapIdx g := by
  rw [List.mapIdx_eq_mapIdx_iff, List.mapIdx_eq_mapIdx_iff]
  simp

end Keyword

namespace NodeKind

/-! ## Forms over other subtrees -/

/-- The form with `f i c` in place of its subtree `c`, where `i` is the number of the
place among the children. -/
def mapIdx (f : Nat → α → β) : NodeKind α → NodeKind β
  | .module body => .module (body.mapIdx f)
  | .functionDef n args body decorators =>
    .functionDef n (args.mapIdx f) (body.mapIdx fun i => f (i + args.length))
      (decorators.mapIdx fun i => f (i + body.length + args.length))
  | .classDef n bases body decorators =>
    .classDef n (bases.mapIdx f) (body.mapIdx fun i => f (i + bases.length))
      (decorators.mapIdx fun i => f (i + body.length + bases.length))
  | .returns value => .returns (value.map (f 0))
  | .assign targets value => .assign (targets.mapIdx f) (f targets.length value)
  | .augAssign target op value => .augAssign (f 0 target) op (f 1 value)
  | .expr value => .expr (f 0 value)
  | .ifThen test body orelse =>
    .ifThen (f 0 test) (body.mapIdx fun i => f (i + 1))
      (orelse.mapIdx fun i => f (i + body.length + 1))
  | .forIn target iter body orelse =>
    .forIn (f 0 target) (f 1 iter) (body.mapIdx fun i => f (i + 2))
      (orelse.mapIdx fun i => f (i + body.length + 2))
  | .whileDo test body orelse =>
    .whileDo (f 0 test) (body.mapIdx fun i => f (i + 1))
      (orelse.mapIdx fun i => f (i + body.length + 1))
  | .imports names => .imports names
  | .importFrom source names level => .importFrom source names level
  | .globals names => .globals names
  | .pass => .pass
  | .breakLoop => .breakLoop
  | .continueLoop => .continueLoop
  | .attr value n ctx => .attr (f 0 value) n ctx
  | .call func args keywords =>
    .call (f 0 func) (args.mapIdx fun i => f (i + 1))
      (keywords.mapIdx fun i w => ⟨w.arg, f (i + args.length + 1) w.value⟩)
  | .name id ctx => .name id ctx
  | .subscript value index ctx => .subscript (f 0 value) (f 1 index) ctx
  | .constant value => .constant value
  | .binOp left op right => .binOp (f 0 left) op (f 1 right)
  | .boolOp op values => .boolOp op (values.mapIdx f)
  | .unaryOp op operand => .unaryOp op (f 0 operand)
  | .compare left ops comparators =>
    .compare (f 0 left) ops (comparators.mapIdx fun i => f (i + 1))
  | .ifExp test body orelse => .ifExp (f 0 test) (f 1 body) (f 2 orelse)
  | .lambda args body => .lambda (args.mapIdx f) (f args.length body)
  | .tuple elements ctx => .tuple (elements.mapIdx f) ctx
  | .list elements ctx => .list (elements.mapIdx f) ctx
  | .dict keys values =>
    .dict (keys.mapIdx f) (values.mapIdx fun i => f (i + keys.length))
  | .slice lower upper step =>
    .slice (lower.map (f 0)) (upper.map (f lower.toList.length))
      (step.map (f (lower.toList.length + upper.toList.length)))
  | .starred value ctx => .starred (f 0 value) ctx
  | .arg n => .arg n

/-- Over its own subtrees a form is rebuilt to itself. -/
theorem mapIdx_id (k : NodeKind α) : (k.mapIdx fun _ c => c) = k := by
  have inList : ∀ {γ : Type} (l : List γ), (l.mapIdx fun _ c => c) = l := by
    intro γ l
    refine List.ext_getElem? fun i => ?_
    simp
  cases k <;> simp [mapIdx, inList]

/-- The children of a rebuilt form, each at the place of the child it comes from. -/
theorem children_mapIdx (f : Nat → α → β) (k : NodeKind α) :
    (k.mapIdx f).children = k.children.mapIdx f := by
  cases k with
  | slice lower upper step => cases lower <;> cases upper <;> cases step <;> rfl
  | returns value => cases value <;> rfl
  | _ =>
      simp [mapIdx, children, targets, others, List.mapIdx_append, List.mapIdx_cons,
        Keyword.map_value_mapIdx, Nat.add_assoc]

/-- Two functions rebuild a form alike if they do so with its children. -/
theorem mapIdx_eq_mapIdx_iff {f g : Nat → α → β} {k : NodeKind α} :
    k.mapIdx f = k.mapIdx g ↔ k.children.mapIdx f = k.children.mapIdx g := by
  have inAppend : ∀ (l : List α) (f g : Nat → α → β) (r r' : List β),
      l.mapIdx f ++ r = l.mapIdx g ++ r' ↔ l.mapIdx f = l.mapIdx g ∧ r = r' := by
    intro l f g r r'
    refine ⟨fun h => List.append_inj h ?_, fun ⟨hl, hr⟩ => by rw [hl, hr]⟩
    rw [List.length_mapIdx, List.length_mapIdx]
  rw [← children_mapIdx, ← children_mapIdx]
  refine ⟨congrArg children, fun h => ?_⟩
  cases k with
  | imports _ | importFrom _ _ _ | globals _ | pass | breakLoop | continueLoop => rfl
  | name _ _ | constant _ | arg _ => rfl
  | slice lower upper step =>
      cases lower <;> cases upper <;> cases step <;> simp_all [mapIdx, children, targets, others]
  | returns value => cases value <;> simp_all [mapIdx, children, targets, others]
  | _ =>
      simpa [mapIdx, children, targets, others, inAppend, Keyword.map_value_mapIdx,
        Keyword.mapIdx_eq_mapIdx_iff] using h

/-! ## The subtrees of a form -/

/-- Is `c` a subtree of the form? It is if a mark on `c`, and on nothing else, shows in the
form. This does not refer to the list of children. -/
def HasPart (k : NodeKind α) (c : α) : Prop :=
  k.mapIdx (fun _ a => a = c) ≠ k.mapIdx fun _ _ => False

/-- The children of a form are its subtrees, and no subtree is left out. -/
theorem hasPart_iff {k : NodeKind α} {c : α} : k.HasPart c ↔ c ∈ k.children := by
  unfold HasPart
  rw [Ne, mapIdx_eq_mapIdx_iff, List.mapIdx_eq_mapIdx_iff, List.mem_iff_getElem]
  simp

end NodeKind

end Forms

namespace Node

/-- The tree `m` stands in the tree `n`, at its root or deeper. -/
inductive Within (m : Node) : Node → Prop where
  | root : Within m m
  | deeper {c n : Node} (part : n.kind.HasPart c) (within : Within m c) : Within m n

/-- The trees in a tree are its nodes. -/
theorem within_iff_mem_nodes {m n : Node} : m.Within n ↔ m ∈ n.nodes := by
  constructor
  · intro h
    induction h with
    | root => exact m.mem_nodes_self
    | deeper part _ ih => exact mem_nodes_of_mem_children (NodeKind.hasPart_iff.1 part) ih
  · intro h
    induction n using Node.induct with
    | step n ih =>
        rw [nodes_eq, List.mem_cons, List.mem_flatMap] at h
        rcases h with rfl | ⟨c, hc, hm⟩
        · exact .root
        · exact .deeper (NodeKind.hasPart_iff.2 hc) (ih c hc hm)

/-! ## Paths -/

/-- The tree at the end of a path, whose numbers say at which child to go on. -/
def subtreeAt? : Node → List Nat → Option Node
  | n, [] => some n
  | n, i :: path => n.children[i]?.bind fun c => c.subtreeAt? path

/-- The tree with `new` in place of the tree at the end of a path. -/
def replaceAt : Node → List Nat → Node → Node
  | _, [], new => new
  | n, i :: path, new =>
    .mk (n.kind.mapIdx fun j c => if j = i then c.replaceAt path new else c) n.location

theorem subtreeAt?_cons_eq_some_iff {n m : Node} {i : Nat} {path : List Nat} :
    n.subtreeAt? (i :: path) = some m ↔
      ∃ c, n.children[i]? = some c ∧ c.subtreeAt? path = some m :=
  Option.bind_eq_some_iff

/-- A replacement below the root changes one child. -/
theorem children_replaceAt_cons (n : Node) (i : Nat) (path : List Nat) (new : Node) :
    (n.replaceAt (i :: path) new).children = n.children.modify i (·.replaceAt path new) := by
  have hchildren : (n.replaceAt (i :: path) new).children =
      n.children.mapIdx fun j c => if j = i then c.replaceAt path new else c :=
    NodeKind.children_mapIdx _ _
  rw [hchildren]
  refine List.ext_getElem? fun j => ?_
  rw [List.getElem?_mapIdx, List.getElem?_modify]
  simp only [eq_comm (a := i)]
  rfl

/-- A tree put where it stands already changes nothing. -/
theorem replaceAt_self {n old : Node} {path : List Nat} (h : n.subtreeAt? path = some old) :
    n.replaceAt path old = n := by
  induction path generalizing n with
  | nil => exact (Option.some.inj h).symm
  | cons i path ih =>
      rcases subtreeAt?_cons_eq_some_iff.1 h with ⟨c, hc, hold⟩
      have hsame : (n.kind.mapIdx fun j c => if j = i then c.replaceAt path old else c) =
          n.kind.mapIdx fun _ c => c := by
        refine NodeKind.mapIdx_eq_mapIdx_iff.2 (List.mapIdx_eq_mapIdx_iff.2 fun j hj => ?_)
        obtain ⟨hi, rfl⟩ := List.getElem?_eq_some_iff.1 hc
        by_cases hji : j = i
        · subst hji
          rw [if_pos rfl]
          exact ih hold
        · rw [if_neg hji]
      rw [replaceAt, hsame, NodeKind.mapIdx_id]
      rcases n with ⟨kind, location⟩
      rfl

/-- The new tree stands where the old one stood. -/
theorem subtreeAt?_replaceAt {n old : Node} {path : List Nat} (h : n.subtreeAt? path = some old)
    (new : Node) : (n.replaceAt path new).subtreeAt? path = some new := by
  induction path generalizing n with
  | nil => rfl
  | cons i path ih =>
      rcases subtreeAt?_cons_eq_some_iff.1 h with ⟨c, hc, hold⟩
      refine subtreeAt?_cons_eq_some_iff.2 ⟨c.replaceAt path new, ?_, ih hold⟩
      rw [children_replaceAt_cons, List.getElem?_modify, hc]
      exact congrArg some (if_pos rfl)

/-- The trees in a tree are those at the ends of paths. -/
theorem within_iff_exists_subtreeAt? {m n : Node} :
    m.Within n ↔ ∃ path, n.subtreeAt? path = some m := by
  constructor
  · intro h
    induction h with
    | root => exact ⟨[], rfl⟩
    | deeper part _ ih =>
        rcases ih with ⟨path, hpath⟩
        rcases List.mem_iff_getElem?.1 (NodeKind.hasPart_iff.1 part) with ⟨i, hi⟩
        exact ⟨i :: path, subtreeAt?_cons_eq_some_iff.2 ⟨_, hi, hpath⟩⟩
  · rintro ⟨path, hpath⟩
    induction path generalizing n with
    | nil =>
        cases hpath
        exact .root
    | cons i path ih =>
        rcases subtreeAt?_cons_eq_some_iff.1 hpath with ⟨c, hc, hm⟩
        exact .deeper (NodeKind.hasPart_iff.2 (List.mem_of_getElem? hc)) (ih hm)

end Node

end TypeTrace

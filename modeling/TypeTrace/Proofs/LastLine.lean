import TypeTrace.Proofs.Subtrees

/-!
# The last line of a tree

The last line is found by a walk that carries the largest line along. Here it is shown to
be the largest line of the nodes of the tree, so that it can be put together from the last
lines of the children. What is below a node matters for its last line by nothing but that
number.

Main results:

* `replay_largestLine`: what the calls of a tree do to the line that is carried along;
* `max?_lines`: the last line as the largest line of the nodes;
* `lastLine_eq`: the last line from those of the children;
* `lastLine_replaceAt`: subtrees with the same last line can stand for one another;
* `lastLine_structural`: all this for the trees in a tree.
-/

namespace TypeTrace

/-- The larger of two numbers is one of them, and a bound of both. -/
instance lawfulOrderMax_uint32 : Std.LawfulOrderMax UInt32 :=
  .of_max_le_iff
    (fun a b c => by
      have hmax : max a b = if a ≤ b then b else a := rfl
      simp only [hmax, UInt32.le_iff_toNat_le]
      split <;> omega)
    (fun a b => by
      have hmax : max a b = if a ≤ b then b else a := rfl
      rw [hmax]
      split
      · exact .inr rfl
      · exact .inl rfl)

namespace Node

/-! ## The walk -/

/-- If the calls of each tree raise the line that is carried along to the largest line of
the tree, then the calls of all of them do. -/
theorem replay_largestLine_flatMap (calls : Node → List Callback) {trees : List Node}
    (h : ∀ c ∈ trees, ∀ s,
      Visitor.largestLine.replay (calls c) s = (c.nodes.map line).foldl max s) (s : UInt32) :
    Visitor.largestLine.replay (trees.flatMap calls) s =
      ((trees.flatMap nodes).map line).foldl max s := by
  induction trees generalizing s with
  | nil => rfl
  | cons c trees ih =>
      rw [List.flatMap_cons, Visitor.replay_append, h c List.mem_cons_self,
        ih fun d hd => h d (List.mem_cons_of_mem _ hd), List.flatMap_cons, List.map_append,
        List.foldl_append]

/-- The calls of a tree raise the line that is carried along to the largest line of its
nodes. -/
theorem replay_largestLine (n : Node) (s : UInt32) :
    Visitor.largestLine.replay n.calls s = (n.nodes.map line).foldl max s := by
  induction n using Node.induct generalizing s with
  | step n ih =>
      have htarget : ∀ t ∈ n.kind.targets, ∀ s,
          Visitor.largestLine.replay (.enterTarget n t :: (t.calls ++ [.leaveTarget n t])) s =
            (t.nodes.map line).foldl max s := by
        intro t ht s
        rw [Visitor.replay_cons, Visitor.replay_append]
        exact ih t (List.mem_append_left _ ht) s
      have hother : ∀ c ∈ n.kind.others, ∀ s,
          Visitor.largestLine.replay c.calls s = (c.nodes.map line).foldl max s :=
        fun c hc s => ih c (List.mem_append_right _ hc) s
      have hchildren : n.children.flatMap nodes =
          n.kind.targets.flatMap nodes ++ n.kind.others.flatMap nodes :=
        List.flatMap_append
      rw [calls_eq, nodes_eq, hchildren, List.map_cons, List.map_append, List.foldl_cons,
        List.foldl_append, Visitor.replay_cons, Visitor.replay_append, Visitor.replay_append,
        replay_largestLine_flatMap _ htarget, replay_largestLine_flatMap _ hother]
      rfl

/-- The last line is the largest line of the nodes of the tree. -/
theorem max?_lines (n : Node) : (n.nodes.map line).max? = some n.lastLine := by
  have hwalk : n.lastLine = (n.nodes.map line).foldl max n.line := by
    unfold lastLine
    rw [walk_eq_replay (fun _ => false) fun _ _ => rfl]
    exact n.replay_largestLine n.line
  have hself : max n.line n.line = n.line := Std.IdempotentOp.idempotent n.line
  rw [hwalk, nodes_eq, List.map_cons, List.max?_cons', List.foldl_cons, hself]

theorem line_le_lastLine {n m : Node} (h : m ∈ n.nodes) : m.line ≤ n.lastLine :=
  (List.max?_eq_some_iff.1 n.max?_lines).2 _ (List.mem_map_of_mem h)

theorem exists_line_eq_lastLine (n : Node) : ∃ m ∈ n.nodes, m.line = n.lastLine :=
  List.mem_map.1 (List.max?_eq_some_iff.1 n.max?_lines).1

/-! ## From the children -/

/-- The last line of a child is not behind that of its parent. -/
theorem lastLine_le_of_mem_children {n c : Node} (h : c ∈ n.children) :
    c.lastLine ≤ n.lastLine := by
  rcases c.exists_line_eq_lastLine with ⟨m, hm, hline⟩
  rw [← hline]
  exact line_le_lastLine (mem_nodes_of_mem_children h hm)

/-- The last line of a tree is the line of its root or the largest of the last lines of its
children. -/
theorem lastLine_eq (n : Node) :
    n.lastLine = max n.line ((n.children.map lastLine).max?.getD n.line) := by
  have hlargest : (n.line :: n.children.map lastLine).max? = some n.lastLine := by
    rw [List.max?_eq_some_iff, List.forall_mem_cons, List.forall_mem_map]
    refine ⟨?_, line_le_lastLine n.mem_nodes_self, fun c hc => lastLine_le_of_mem_children hc⟩
    rcases n.exists_line_eq_lastLine with ⟨m, hm, hline⟩
    rw [nodes_eq, List.mem_cons, List.mem_flatMap] at hm
    rcases hm with rfl | ⟨c, hc, hm⟩
    · rw [hline]
      exact List.mem_cons_self
    · have hchild : c.lastLine = n.lastLine :=
        UInt32.le_antisymm (lastLine_le_of_mem_children hc) (hline ▸ line_le_lastLine hm)
      rw [← hchild]
      exact List.mem_cons_of_mem _ (List.mem_map_of_mem hc)
  rw [List.max?_cons', List.foldl_max] at hlargest
  exact (Option.some.inj hlargest).symm

/-- The last line depends on the line of the root and on the last lines of the children. -/
theorem lastLine_congr {n n' : Node} (hline : n.line = n'.line)
    (hchildren : n.children.map lastLine = n'.children.map lastLine) :
    n.lastLine = n'.lastLine := by
  rw [lastLine_eq n, lastLine_eq n', hline, hchildren]

/-! ## Replaced subtrees -/

/-- A subtree can be replaced by one with the same last line. -/
theorem lastLine_replaceAt {n old new : Node} {path : List Nat}
    (h : n.subtreeAt? path = some old) (hlast : new.lastLine = old.lastLine) :
    (n.replaceAt path new).lastLine = n.lastLine := by
  induction path generalizing n with
  | nil =>
      rw [← Option.some.inj h] at hlast
      exact hlast
  | cons i path ih =>
      rcases subtreeAt?_cons_eq_some_iff.1 h with ⟨c, hc, hold⟩
      refine lastLine_congr rfl (List.ext_getElem? fun j => ?_)
      rw [children_replaceAt_cons, List.getElem?_map, List.getElem?_map, List.getElem?_modify]
      by_cases hij : i = j
      · subst hij
        simp [hc, ih hold]
      · simp [hij]

/-! ## The last line of a tree -/

/-- The last line of a tree is the larger of the line of its root and the largest last line
of its children. No node of the tree is behind it, wherever the node stands, and some node
is on it. A tree that stands in another one can be replaced, at the end of a path to it, by
any tree with the same last line, and the last line of the whole stays. If it is replaced
by itself, the whole is what it was. -/
theorem lastLine_structural (n : Node) :
    n.lastLine = max n.line ((n.children.map lastLine).max?.getD n.line) ∧
      (∀ m : Node, m.Within n → m.line ≤ n.lastLine) ∧
      (∃ m : Node, m.Within n ∧ m.line = n.lastLine) ∧
      (∀ old : Node, old.Within n → ∃ path, n.subtreeAt? path = some old) ∧
      ∀ path old, n.subtreeAt? path = some old →
        n.replaceAt path old = n ∧
          ∀ new, (n.replaceAt path new).subtreeAt? path = some new ∧
            (new.lastLine = old.lastLine → (n.replaceAt path new).lastLine = n.lastLine) := by
  refine ⟨n.lastLine_eq, fun m hm => line_le_lastLine (within_iff_mem_nodes.1 hm), ?_,
    fun old hold => within_iff_exists_subtreeAt?.1 hold, fun path old hpath =>
      ⟨replaceAt_self hpath, fun new =>
        ⟨subtreeAt?_replaceAt hpath new, lastLine_replaceAt hpath⟩⟩⟩
  rcases n.exists_line_eq_lastLine with ⟨m, hm, hline⟩
  exact ⟨m, within_iff_mem_nodes.2 hm, hline⟩

/-- The function `g` with the decorator `d` and the body `x[:3] = f(key=k)`, which goes on
behind the bracket on a fourth line. -/
def decoratedFunction : Node :=
  .mk (.functionDef "g" []
    [.mk (.assign
      [.mk (.subscript (.mk (.name "x" .load) ⟨3, 4⟩)
        (.mk (.slice none (some (.mk (.constant (.int 3)) ⟨3, 7⟩)) none) ⟨3, 6⟩) .store) ⟨3, 4⟩]
      (.mk (.call (.mk (.name "f" .load) ⟨3, 12⟩) []
        [{ arg := some "key", value := .mk (.name "k" .load) ⟨4, 8⟩ }]) ⟨3, 12⟩)) ⟨3, 4⟩]
    [.mk (.name "d" .load) ⟨1, 1⟩]) ⟨2, 0⟩

/-- The argument `k` is replaced by a sum that begins on the third line and ends where `k`
stood. The function still ends on its fourth line. -/
theorem lastLine_decoratedFunction :
    let k := mk (.name "k" .load) ⟨4, 8⟩
    let sum := mk (.binOp (.mk (.name "k" .load) ⟨3, 18⟩) "+" (.mk (.constant (.int 1)) ⟨4, 4⟩))
      ⟨3, 18⟩
    decoratedFunction.subtreeAt? [0, 1, 1] = some k ∧ sum.lastLine = k.lastLine ∧
      k.Within decoratedFunction ∧ k.line ≤ decoratedFunction.lastLine ∧
      (decoratedFunction.replaceAt [0, 1, 1] sum).subtreeAt? [0, 1, 1] = some sum ∧
      decoratedFunction.lastLine = 4 ∧
      (decoratedFunction.replaceAt [0, 1, 1] sum).lastLine = 4 := by
  intro k sum
  obtain ⟨-, hbound, -, -, hreplace⟩ := lastLine_structural decoratedFunction
  have hk : decoratedFunction.subtreeAt? [0, 1, 1] = some k := rfl
  have hsum : sum.lastLine = k.lastLine := by decide +kernel
  have hwithin : k.Within decoratedFunction := within_iff_exists_subtreeAt?.2 ⟨_, hk⟩
  have hlast : decoratedFunction.lastLine = 4 := by decide +kernel
  obtain ⟨hnew, hwhole⟩ := (hreplace _ k hk).2 sum
  exact ⟨hk, hsum, hwithin, hbound k hwithin, hnew, hlast, (hwhole hsum).trans hlast⟩

end Node

end TypeTrace

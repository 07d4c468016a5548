import TypeTrace.Ast.Walk

/-!
# The calls of a walk

A visitor that never stops is called in an order that depends on the tree alone.
This module lists those calls and shows that a walk folds the visitor over the
list, so that a property of a whole walk is an induction over a list of calls.
A visitor that may stop is called in the same order up to the visit that stops.

Main results:

* `callbacks_eq`, `calls_eq`: the calls of a node in terms of the calls of its
  children;
* `walk_eq_follow`: a walk follows its calls up to the first visit that stops;
* `walk_eq_replay`: a walk that never stops replays its calls.
-/

namespace TypeTrace

/-! ## The list of calls -/

namespace Node

/-- The nodes of a tree, each before the nodes below it. -/
def nodes (n : Node) : List Node :=
  n :: n.children.attach.flatMap fun c => nodes c.1
termination_by sizeOf n
decreasing_by exact sizeOf_lt_of_mem_children c.2

/-- The nodes of a tree are its root and then the nodes of its children. -/
theorem nodes_eq (n : Node) : n.nodes = n :: n.children.flatMap nodes := by
  rw [nodes]
  congr 1
  rw [List.flatMap_subtype (g := nodes) (fun _ _ => rfl), List.unattach_attach]

theorem mem_nodes_self (n : Node) : n ∈ n.nodes := by
  rw [nodes_eq]
  exact List.mem_cons_self

theorem mem_nodes_of_mem_children {n c m : Node} (hc : c ∈ n.children) (hm : m ∈ c.nodes) :
    m ∈ n.nodes := by
  rw [nodes_eq]
  exact List.mem_cons_of_mem _ (List.mem_flatMap.2 ⟨c, hc, hm⟩)

/-- The calls of a walk that goes below every node but those that `skip` names.
A node is visited before the calls of its children and left after them, and the
calls of a target stand between two more. -/
def callbacks (skip : Node → Bool) (n : Node) : List Callback :=
  let below :=
    (n.kind.targets.attach.flatMap fun t =>
      .enterTarget n t.1 :: (callbacks skip t.1 ++ [.leaveTarget n t.1])) ++
    n.kind.others.attach.flatMap fun c => callbacks skip c.1
  .visit n :: ((if skip n then [] else below) ++ [.leave n])
termination_by sizeOf n
decreasing_by
  · exact sizeOf_lt_of_mem_children (List.mem_append_left _ t.2)
  · exact sizeOf_lt_of_mem_children (List.mem_append_right _ c.2)

/-- The calls around one target of an assignment. -/
def targetCallbacks (skip : Node → Bool) (n t : Node) : List Callback :=
  .enterTarget n t :: (t.callbacks skip ++ [.leaveTarget n t])

/-- The calls of a node are put together from the calls of its children. -/
theorem callbacks_eq (skip : Node → Bool) (n : Node) :
    n.callbacks skip =
      .visit n ::
        ((if skip n then []
          else n.kind.targets.flatMap (n.targetCallbacks skip) ++
            n.kind.others.flatMap (callbacks skip)) ++ [.leave n]) := by
  rw [callbacks]
  rw [List.flatMap_subtype (g := n.targetCallbacks skip) (fun _ _ => rfl),
    List.flatMap_subtype (g := callbacks skip) (fun _ _ => rfl), List.unattach_attach,
    List.unattach_attach]

/-- The calls of a walk that goes below every node. -/
def calls (n : Node) : List Callback := n.callbacks fun _ => false

theorem calls_eq (n : Node) :
    n.calls =
      .visit n ::
        ((n.kind.targets.flatMap (fun t => .enterTarget n t :: (t.calls ++ [.leaveTarget n t])) ++
          n.kind.others.flatMap calls) ++ [.leave n]) := by
  unfold calls
  rw [callbacks_eq, if_neg Bool.false_ne_true]
  rfl

end Node

/-! ## Replaying calls -/

namespace Visitor

variable {σ : Type}

/-- The state after one call. -/
def apply (v : Visitor σ) : Callback → σ → σ
  | .visit n, s => (v.visit n s).2
  | .leave n, s => v.leave n s
  | .enterTarget n t, s => v.enterTarget n t s
  | .leaveTarget n t, s => v.leaveTarget n t s

/-- The state after several calls. -/
def replay (v : Visitor σ) (calls : List Callback) (s : σ) : σ :=
  calls.foldl (fun s c => v.apply c s) s

@[simp]
theorem replay_nil (v : Visitor σ) (s : σ) : v.replay [] s = s :=
  rfl

@[simp]
theorem replay_cons (v : Visitor σ) (c : Callback) (calls : List Callback) (s : σ) :
    v.replay (c :: calls) s = v.replay calls (v.apply c s) :=
  rfl

@[simp]
theorem replay_append (v : Visitor σ) (before after : List Callback) (s : σ) :
    v.replay (before ++ after) s = v.replay after (v.replay before s) :=
  List.foldl_append

end Visitor

/-! ## Following calls until one stops -/

namespace Walked

variable {σ : Type}

@[simp]
theorem andThen_finish (w : Walked σ) : w.andThen .finished = w := by
  cases w <;> rfl

theorem andThen_assoc (w : Walked σ) (next later : σ → Walked σ) :
    (w.andThen next).andThen later = w.andThen fun s => (next s).andThen later := by
  cases w <;> rfl

end Walked

namespace Visitor

variable {σ : Type}

/-- Makes one call; a visit whose answer is to stop ends the walk. -/
def attempt (v : Visitor σ) (c : Callback) (s : σ) : Walked σ :=
  match c with
  | .visit n =>
    if (v.visit n s).1 = .stop then .stopped (v.visit n s).2 else .finished (v.visit n s).2
  | c => .finished (v.apply c s)

/-- A call is made and the walk goes on, unless it is a visit whose answer is to stop. -/
theorem attempt_eq_finished {v : Visitor σ} {c : Callback} {s : σ}
    (h : ∀ n, c = .visit n → (v.visit n s).1 ≠ .stop) :
    v.attempt c s = .finished (v.apply c s) := by
  cases c with
  | visit n => exact if_neg (h n rfl)
  | leave n => rfl
  | enterTarget n t => rfl
  | leaveTarget n t => rfl

/-- Makes several calls, up to the first visit whose answer is to stop. -/
def follow (v : Visitor σ) : List Callback → σ → Walked σ
  | [], s => .finished s
  | c :: calls, s => (v.attempt c s).andThen (v.follow calls)

/-- What follows is called only if nothing before it stopped. -/
theorem follow_append (v : Visitor σ) (before after : List Callback) :
    v.follow (before ++ after) = fun s => (v.follow before s).andThen (v.follow after) := by
  induction before with
  | nil => rfl
  | cons c before ih =>
      funext s
      rw [List.cons_append, follow, follow, ih, Walked.andThen_assoc]

/-- Calls are all made if no visit stops. -/
theorem follow_eq_replay {v : Visitor σ} (h : ∀ n s, (v.visit n s).1 ≠ .stop)
    (calls : List Callback) (s : σ) : v.follow calls s = .finished (v.replay calls s) := by
  induction calls generalizing s with
  | nil => rfl
  | cons c calls ih =>
      rw [follow, attempt_eq_finished fun n _ => h n s, Walked.andThen_finished, ih, replay_cons]

end Visitor

variable {σ : Type} {v : Visitor σ}

/-- Walking several nodes follows their calls, if walking each one does. -/
theorem walkAll_eq_follow {calls : Node → List Callback} {nodes : List Node}
    (h : ∀ c ∈ nodes, ∀ s, walk v c s = v.follow (calls c) s) (w : Walked σ) :
    walkAll v nodes w = w.andThen (v.follow (nodes.flatMap calls)) := by
  induction nodes generalizing w with
  | nil => exact w.andThen_finish.symm
  | cons c nodes ih =>
      have hfirst : walk v c = v.follow (calls c) := funext (h c List.mem_cons_self)
      have hrest := ih fun d hd => h d (List.mem_cons_of_mem _ hd)
      unfold walkAll at hrest ⊢
      rw [List.foldl_cons, hrest, hfirst, List.flatMap_cons, Visitor.follow_append,
        Walked.andThen_assoc]

/-- Walking targets follows their calls, each between its entering and leaving. -/
theorem walkTargets_eq_follow {skip : Node → Bool} {n : Node} {targets : List Node}
    (h : ∀ t ∈ targets, ∀ s, walk v t s = v.follow (t.callbacks skip) s) (w : Walked σ) :
    walkTargets v n targets w =
      w.andThen (v.follow (targets.flatMap (n.targetCallbacks skip))) := by
  induction targets generalizing w with
  | nil => exact w.andThen_finish.symm
  | cons t targets ih =>
      have hrest := ih fun d hd => h d (List.mem_cons_of_mem _ hd)
      have hfirst : (w.andThen fun s => walk v t (v.enterTarget n t s)).call (v.leaveTarget n t) =
          w.andThen (v.follow (n.targetCallbacks skip t)) := by
        unfold Walked.call
        rw [Walked.andThen_assoc]
        congr 1
        funext s
        rw [h t List.mem_cons_self, Node.targetCallbacks, Visitor.follow, Visitor.follow_append]
        rfl
      unfold walkTargets at hrest ⊢
      rw [List.foldl_cons, hrest, hfirst, List.flatMap_cons, Visitor.follow_append,
        Walked.andThen_assoc]

/-- A walk follows the calls of the tree, where `skip` names the nodes below which the
visitor does not go, and ends at the first visit that stops. -/
theorem walk_eq_follow (skip : Node → Bool)
    (h : ∀ n s, (v.visit n s).1 = .stop ∨ (v.visit n s).1 = if skip n then .skip else .descend)
    (n : Node) (s : σ) : walk v n s = v.follow (n.callbacks skip) s := by
  induction n using Node.induct generalizing s with
  | step n ih =>
      have hvisit : ∀ {answer}, (v.visit n s).1 = answer →
          v.visit n s = (answer, (v.visit n s).2) := by
        rintro answer rfl
        rfl
      rw [Node.callbacks_eq, Visitor.follow, Visitor.attempt]
      rcases h n s with hstop | hanswer
      · rw [walk_eq_of_stop (hvisit hstop), if_pos hstop]
        rfl
      · cases hskip : skip n with
        | true =>
            rw [if_pos hskip] at hanswer
            have hgoes : (v.visit n s).1 ≠ .stop := by simp [hanswer]
            rw [walk_eq_of_skip (hvisit hanswer), if_neg hgoes]
            rfl
        | false =>
            rw [hskip, if_neg Bool.false_ne_true] at hanswer
            have hgoes : (v.visit n s).1 ≠ .stop := by simp [hanswer]
            rw [walk_eq_of_descend (hvisit hanswer), if_neg hgoes, if_neg Bool.false_ne_true,
              walkTargets_eq_follow fun t ht => ih t (List.mem_append_left _ ht),
              walkAll_eq_follow fun c hc => ih c (List.mem_append_right _ hc),
              Visitor.follow_append, Visitor.follow_append, Walked.andThen_finished,
              Walked.andThen_finished]
            rfl

/-- A walk whose visitor never stops finishes, and its last state is that of
replaying the calls of the tree. -/
theorem walk_eq_replay (skip : Node → Bool)
    (h : ∀ n s, (v.visit n s).1 = if skip n then .skip else .descend) (n : Node) (s : σ) :
    walk v n s = .finished (v.replay (n.callbacks skip) s) := by
  rw [walk_eq_follow skip fun n s => .inr (h n s), Visitor.follow_eq_replay]
  intro n s hstop
  rw [h] at hstop
  split at hstop <;> exact Answer.noConfusion hstop

end TypeTrace

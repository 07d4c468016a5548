import TypeTrace.Ast.Node

/-!
# Walking a tree

A walk visits a node before its children and leaves it after them. The visitor
says at each visit whether to descend, to skip the children or to stop. Around
each target of an assignment there is one more pair of calls; targets come
before the assigned value. A skipped node is left like any other. Once the
visitor stops, nothing more is called.

Main statements:

* `walk_eq_of_stop`, `walk_eq_of_skip`: what a walk does at a node without descending;
* `walk_eq_of_descend`: what a walk does below a node, in terms of its children.
-/

namespace TypeTrace

/-- What a visitor wants to do next. -/
inductive Answer where
  | descend
  | skip
  | stop
  deriving DecidableEq, Repr

/-- The calls that a walk makes, each with the state that is carried along. -/
structure Visitor (σ : Type) where
  visit : Node → σ → Answer × σ := fun _ s => (.descend, s)
  leave : Node → σ → σ := fun _ s => s
  /-- Called with the assignment and its target before the target is walked. -/
  enterTarget : Node → Node → σ → σ := fun _ _ s => s
  /-- Called with the assignment and its target after the target was walked. -/
  leaveTarget : Node → Node → σ → σ := fun _ _ s => s

/-- How a walk ended, with the last state. -/
inductive Walked (σ : Type) where
  | finished (state : σ)
  | stopped (state : σ)
  deriving DecidableEq, Repr

namespace Walked

variable {σ : Type}

/-- The last state of a walk. -/
def state : Walked σ → σ
  | .finished s => s
  | .stopped s => s

/-- Goes on with another walk unless this one was stopped. -/
def andThen (w : Walked σ) (next : σ → Walked σ) : Walked σ :=
  match w with
  | .finished s => next s
  | .stopped s => .stopped s

/-- Makes one more call unless the walk was stopped. -/
def call (w : Walked σ) (f : σ → σ) : Walked σ := w.andThen fun s => .finished (f s)

@[simp]
theorem andThen_finished (s : σ) (next : σ → Walked σ) : (finished s).andThen next = next s :=
  rfl

@[simp]
theorem andThen_stopped (s : σ) (next : σ → Walked σ) :
    (stopped s).andThen next = stopped s :=
  rfl

@[simp]
theorem call_finished (s : σ) (f : σ → σ) : (finished s).call f = finished (f s) :=
  rfl

@[simp]
theorem call_stopped (s : σ) (f : σ → σ) : (stopped s).call f = stopped s :=
  rfl

end Walked

variable {σ : Type}

/-- Walks a node and all nodes below it. -/
def walk (v : Visitor σ) (n : Node) (s : σ) : Walked σ :=
  match v.visit n s with
  | (.stop, s) => .stopped s
  | (.skip, s) => .finished (v.leave n s)
  | (.descend, s) =>
    let afterTargets := n.kind.targets.attach.foldl (fun (w : Walked σ) t =>
      (w.andThen fun s => walk v t.1 (v.enterTarget n t.1 s)).call (v.leaveTarget n t.1))
      (Walked.finished s)
    let afterOthers := n.kind.others.attach.foldl (fun (w : Walked σ) c =>
      w.andThen fun s => walk v c.1 s) afterTargets
    afterOthers.call (v.leave n)
termination_by sizeOf n
decreasing_by
  · exact Node.sizeOf_lt_of_mem_children (List.mem_append_left _ t.2)
  · exact Node.sizeOf_lt_of_mem_children (List.mem_append_right _ c.2)

/-- Walks the targets of an assignment one after the other. -/
def walkTargets (v : Visitor σ) (n : Node) (targets : List Node) (w : Walked σ) : Walked σ :=
  targets.foldl (fun (w : Walked σ) t =>
    (w.andThen fun s => walk v t (v.enterTarget n t s)).call (v.leaveTarget n t)) w

/-- Walks several nodes one after the other. -/
def walkAll (v : Visitor σ) (nodes : List Node) (w : Walked σ) : Walked σ :=
  nodes.foldl (fun (w : Walked σ) c => w.andThen fun s => walk v c s) w

theorem walk_eq_of_stop {v : Visitor σ} {n : Node} {s s' : σ} (h : v.visit n s = (.stop, s')) :
    walk v n s = .stopped s' := by
  rw [walk, h]

theorem walk_eq_of_skip {v : Visitor σ} {n : Node} {s s' : σ} (h : v.visit n s = (.skip, s')) :
    walk v n s = .finished (v.leave n s') := by
  rw [walk, h]

/-- Below a node that is descended into, the targets are walked first and then
the other children, and the node is left at the end. -/
theorem walk_eq_of_descend {v : Visitor σ} {n : Node} {s s' : σ}
    (h : v.visit n s = (.descend, s')) :
    walk v n s =
      (walkAll v n.kind.others (walkTargets v n n.kind.targets (.finished s'))).call
        (v.leave n) := by
  rw [walk, h]
  simp only [walkAll, walkTargets]
  simp only [List.foldl_subtype, List.unattach_attach]

/-! ## Recording a walk -/

/-- A call made during a walk. -/
inductive Callback where
  | visit (n : Node)
  | leave (n : Node)
  | enterTarget (assign target : Node)
  | leaveTarget (assign target : Node)

/-- The visitor whose answer depends on the node alone and whose state is the
record of all calls so far. -/
def Visitor.recording (answer : Node → Answer) : Visitor (List Callback) where
  visit n log := (answer n, log ++ [.visit n])
  leave n log := log ++ [.leave n]
  enterTarget a t log := log ++ [.enterTarget a t]
  leaveTarget a t log := log ++ [.leaveTarget a t]

/-! ## The last line of a tree -/

/-- The visitor that keeps the largest line of the nodes visited. -/
def Visitor.largestLine : Visitor UInt32 where
  visit n line := (.descend, max line n.line)

/-- The largest line of any node in a tree. -/
def Node.lastLine (n : Node) : UInt32 := (walk .largestLine n n.line).state

end TypeTrace

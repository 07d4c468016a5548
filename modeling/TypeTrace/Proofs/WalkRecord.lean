import Mathlib.Data.List.Perm.Basic
import TypeTrace.Proofs.WalkLog

/-!
# The record of a walk

Visitors whose answer depends on the node alone are all called in one way, which the
recording visitor shows. This module says what such a record looks like: the nodes are
visited and left by one rule for all kinds, each target of an assignment stands between
one more pair of calls, and a visit that stops cuts the record off.

Main results:

* `follow_eq_untilStop`: calls are made up to the first visit that stops;
* `filter_isOfNode_callbacks`: nodes are visited and left in the order of their children;
* `filterMap_callbacks_perm`: every target that is due is entered, or left, once;
* `walk_recorded`: the calls that a walk makes.
-/

namespace TypeTrace

/-- The answer of a visitor that goes on where another one stops. -/
def Answer.patient : Answer → Answer
  | .stop => .descend
  | answer => answer

/-- Changes the last state of a walk. -/
def Walked.map {σ τ : Type} (f : σ → τ) : Walked σ → Walked τ
  | .finished s => .finished (f s)
  | .stopped s => .stopped (f s)

namespace Callback

/-- Is a node visited or left by the call? -/
def isOfNode : Callback → Bool
  | .visit _ | .leave _ => true
  | _ => false

/-- The assignment and its target, if the call enters a target. -/
def entered? : Callback → Option (Node × Node)
  | .enterTarget assign target => some (assign, target)
  | _ => none

/-- The assignment and its target, if the call leaves a target. -/
def left? : Callback → Option (Node × Node)
  | .leaveTarget assign target => some (assign, target)
  | _ => none

/-- The targets that a walk has to go through after the call, each with its assignment:
those of a visited node, unless the node is skipped. -/
def due (skip : Node → Bool) : Callback → List (Node × Node)
  | .visit n => if skip n then [] else n.kind.targets.map (n, ·)
  | _ => []

/-- Is the call a visit whose answer is to stop? -/
def stops (answer : Node → Answer) : Callback → Bool
  | .visit n => answer n = .stop
  | _ => false

theorem stops_iff {answer : Node → Answer} {c : Callback} :
    c.stops answer = true ↔ ∃ n, c = .visit n ∧ answer n = .stop := by
  cases c <;> simp [stops]

/-- The calls up to the first visit that stops. -/
def untilStop (answer : Node → Answer) (calls : List Callback) : Walked (List Callback) :=
  match calls.find? (stops answer) with
  | none => .finished calls
  | some c => .stopped (calls.takeWhile (fun c => !c.stops answer) ++ [c])

/-! ## Calls until one stops -/

theorem untilStop_cons (answer : Node → Answer) (c : Callback) (calls : List Callback) :
    untilStop answer (c :: calls) =
      if c.stops answer then .stopped [c] else (untilStop answer calls).map (c :: ·) := by
  unfold untilStop
  rw [List.find?_cons, List.takeWhile_cons]
  cases c.stops answer with
  | true => rfl
  | false => cases calls.find? (stops answer) <;> rfl

/-- Without a stop all calls are made. -/
theorem untilStop_eq_finished {answer : Node → Answer} {calls : List Callback}
    (h : ∀ m, .visit m ∈ (untilStop answer calls).state → answer m ≠ .stop) :
    untilStop answer calls = .finished calls := by
  cases hfind : calls.find? (stops answer) with
  | none => simp only [untilStop, hfind]
  | some c =>
      rcases stops_iff.1 (List.find?_some hfind) with ⟨m, rfl, hstop⟩
      have hlast : .visit m ∈ (untilStop answer calls).state := by
        simp [untilStop, hfind, Walked.state]
      exact absurd hstop (h m hlast)

end Callback

open Callback

variable {σ : Type}

/-- A visitor whose answer depends on the node makes the calls up to the first visit that
stops. -/
theorem Visitor.follow_eq_untilStop {v : Visitor σ} {answer : Node → Answer}
    (h : ∀ n s, (v.visit n s).1 = answer n) (calls : List Callback) (s : σ) :
    v.follow calls s = (untilStop answer calls).map (v.replay · s) := by
  induction calls generalizing s with
  | nil => rfl
  | cons c calls ih =>
      rw [follow, untilStop_cons]
      cases hstops : c.stops answer with
      | true =>
          rcases stops_iff.1 hstops with ⟨n, rfl, hstop⟩
          rw [attempt, if_pos ((h n s).trans hstop)]
          rfl
      | false =>
          have hgoes : ∀ n, c = .visit n → (v.visit n s).1 ≠ .stop := by
            intro n hvisit hstop
            rw [stops_iff.2 ⟨n, hvisit, (h n s).symm.trans hstop⟩] at hstops
            exact Bool.noConfusion hstops
          rw [attempt_eq_finished hgoes, Walked.andThen_finished, ih, if_neg Bool.false_ne_true]
          cases untilStop answer calls <;> rfl

/-- The record of calls grows by the calls. -/
theorem Visitor.replay_recording (answer : Node → Answer) (calls log : List Callback) :
    (Visitor.recording answer).replay calls log = log ++ calls := by
  induction calls generalizing log with
  | nil => exact (List.append_nil log).symm
  | cons c calls ih =>
      have happly : (Visitor.recording answer).apply c log = log ++ [c] := by
        cases c <;> rfl
      rw [replay_cons, happly, ih, List.append_assoc, List.singleton_append]

/-! ## Nodes and targets -/

/-- Without the calls around targets, a node is visited before the calls of its children
and left after them, whatever its kind. -/
theorem Node.filter_isOfNode_callbacks (skip : Node → Bool) (n : Node) :
    (n.callbacks skip).filter isOfNode =
      .visit n ::
        ((if skip n then [] else n.children.flatMap fun c => (c.callbacks skip).filter isOfNode) ++
          [.leave n]) := by
  have htarget : ∀ t, (n.targetCallbacks skip t).filter isOfNode =
      (t.callbacks skip).filter isOfNode := by
    intro t
    unfold targetCallbacks
    rw [List.filter_cons_of_neg Bool.false_ne_true, List.filter_append,
      List.filter_cons_of_neg Bool.false_ne_true]
    exact List.append_nil _
  rw [callbacks_eq, List.filter_cons_of_pos rfl, List.filter_append]
  cases skip n with
  | true => rfl
  | false =>
      rw [if_neg Bool.false_ne_true, if_neg Bool.false_ne_true, List.filter_append,
        List.filter_flatMap, List.filter_flatMap]
      simp only [htarget]
      rw [← List.flatMap_append]
      rfl

/-- If a call of one sort stands at each target, then the calls of that sort are those of
the targets that are due, each once. -/
theorem Node.filterMap_callbacks_perm {mark : Callback → Option (Node × Node)}
    (hvisit : ∀ n, mark (.visit n) = none) (hleave : ∀ n, mark (.leave n) = none)
    (htarget : ∀ n t (calls : List Callback),
      ((.enterTarget n t :: (calls ++ [.leaveTarget n t])).filterMap mark).Perm
        ((n, t) :: calls.filterMap mark))
    (skip : Node → Bool) (n : Node) :
    ((n.callbacks skip).filterMap mark).Perm ((n.callbacks skip).flatMap (due skip)) := by
  induction n using Node.induct with
  | step n ih =>
      rw [callbacks_eq, List.filterMap_cons_none (hvisit n), List.filterMap_append,
        List.filterMap_cons_none (hleave n), List.filterMap_nil, List.append_nil,
        List.flatMap_cons, List.flatMap_append, List.flatMap_singleton]
      cases hskip : skip n with
      | true => simp [due, hskip]
      | false =>
          have hdue : due skip (.visit n) = n.kind.targets.map (n, ·) := by
            simp [due, hskip]
          have htargets : (n.kind.targets.flatMap fun t =>
              (n.targetCallbacks skip t).filterMap mark).Perm
                (n.kind.targets.map (n, ·) ++
                  n.kind.targets.flatMap fun t => (t.callbacks skip).flatMap (due skip)) := by
            refine List.Perm.trans ?_ (List.map_append_flatMap_perm _ _ _).symm
            refine List.Perm.flatMap_left _ fun t ht => ?_
            exact (htarget n t _).trans ((ih t (List.mem_append_left _ ht)).cons _)
          have hothers : (n.kind.others.flatMap fun c => (c.callbacks skip).filterMap mark).Perm
              (n.kind.others.flatMap fun c => (c.callbacks skip).flatMap (due skip)) :=
            List.Perm.flatMap_left _ fun c hc => ih c (List.mem_append_right _ hc)
          have hinner : ∀ t, (n.targetCallbacks skip t).flatMap (due skip) =
              (t.callbacks skip).flatMap (due skip) := by
            intro t
            simp [targetCallbacks, due]
          rw [if_neg Bool.false_ne_true, hdue, List.filterMap_append, List.filterMap_flatMap,
            List.filterMap_flatMap, List.flatMap_append, List.flatMap_assoc, List.flatMap_assoc]
          simp only [hinner]
          have hleft : due skip (.leave n) = [] := rfl
          rw [hleft, List.append_nil, ← List.append_assoc]
          exact htargets.append hothers

/-- Every target that is due is entered once. -/
theorem Node.entered_perm (skip : Node → Bool) (n : Node) :
    ((n.callbacks skip).filterMap entered?).Perm ((n.callbacks skip).flatMap (due skip)) := by
  refine filterMap_callbacks_perm (fun _ => rfl) (fun _ => rfl) (fun m t calls => ?_) skip n
  have henter : entered? (.enterTarget m t) = some (m, t) := rfl
  have hleave : [Callback.leaveTarget m t].filterMap entered? = [] := rfl
  rw [List.filterMap_cons_some henter, List.filterMap_append, hleave, List.append_nil]

/-- Every target that is due is left once. -/
theorem Node.left_perm (skip : Node → Bool) (n : Node) :
    ((n.callbacks skip).filterMap left?).Perm ((n.callbacks skip).flatMap (due skip)) := by
  refine filterMap_callbacks_perm (fun _ => rfl) (fun _ => rfl) (fun m t calls => ?_) skip n
  have henter : left? (.enterTarget m t) = none := rfl
  have hleave : [Callback.leaveTarget m t].filterMap left? = [(m, t)] := rfl
  rw [List.filterMap_cons_none henter, List.filterMap_append, hleave]
  exact List.perm_append_singleton _ _

/-! ## The record -/

/-- A walk whose visitor answers by the node makes the calls of the tree up to the first
visit that stops. -/
theorem walk_eq_untilStop {v : Visitor σ} {answer : Node → Answer}
    (h : ∀ n s, (v.visit n s).1 = answer n) (n : Node) (s : σ) :
    walk v n s = (untilStop answer (n.callbacks (answer · = .skip))).map (v.replay · s) := by
  rw [walk_eq_follow (answer · = .skip), Visitor.follow_eq_untilStop h]
  intro m s
  rw [h]
  cases answer m with
  | stop => exact .inl rfl
  | skip => exact .inr rfl
  | descend => exact .inr rfl

theorem walk_recording (answer : Node → Answer) (n : Node) :
    walk (.recording answer) n [] = untilStop answer (n.callbacks (answer · = .skip)) := by
  rw [walk_eq_untilStop fun _ _ => rfl]
  simp only [Visitor.replay_recording, List.nil_append]
  cases untilStop answer _ <;> rfl

/-- The record of a visitor that never stops holds all calls of the tree. -/
theorem walk_recording_patient (answer : Node → Answer) (n : Node) :
    (walk (.recording fun m => (answer m).patient) n []).state =
      n.callbacks (answer · = .skip) := by
  have hskip : (fun m => decide ((answer m).patient = .skip)) =
      fun m => decide (answer m = .skip) := by
    funext m
    cases answer m <;> rfl
  rw [walk_recording, hskip, untilStop_eq_finished]
  · rfl
  · intro m _
    cases answer m <;> exact Answer.noConfusion

/-- The calls that a walk makes on a visitor whose answer depends on the node alone. The
visitor gets the calls of the record and ends as the record does. Let `log` be the record
of the visitor that goes on where this one stops.

If no visited node stops the walk, it finishes with `log`. A node is visited, unless it is
skipped its children follow in order, and then it is left. Each target of an assignment
that is not skipped is entered and left once, right before and after its own calls, and
no other node is. If some visited node stops the walk, its visit is the last call, and the
calls before it are those of `log`. -/
theorem walk_recorded (v : Visitor σ) (answer : Node → Answer)
    (hanswer : ∀ n s, (v.visit n s).1 = answer n) (n : Node) (s : σ) :
    let record := walk (.recording answer) n []
    let log (m : Node) := (walk (.recording fun m => (answer m).patient) m []).state
    walk v n s = record.map (v.replay · s) ∧
      ((∀ m, .visit m ∈ record.state → answer m ≠ .stop) → record = .finished (log n)) ∧
      (∀ m, log m = .visit m ::
        ((if answer m = .skip then []
          else
            (m.kind.targets.flatMap fun t =>
              .enterTarget m t :: (log t ++ [.leaveTarget m t])) ++
            m.kind.others.flatMap log) ++ [.leave m])) ∧
      (∀ m, (log m).filter isOfNode = .visit m ::
        ((if answer m = .skip then []
          else m.children.flatMap fun c => (log c).filter isOfNode) ++ [.leave m])) ∧
      (let targets := (log n).flatMap (due (answer · = .skip))
       ((log n).filterMap entered?).Perm targets ∧ ((log n).filterMap left?).Perm targets) ∧
      record = untilStop answer (log n) := by
  intro record log
  let skip (m : Node) : Bool := answer m = .skip
  have hlog : log = Node.callbacks skip := funext (walk_recording_patient answer)
  have hrecord : record = untilStop answer (n.callbacks skip) := walk_recording answer n
  rw [hlog]
  refine ⟨?_, ?_, ?_, ?_, ?_, hrecord⟩
  · rw [hrecord]
    exact walk_eq_untilStop hanswer n s
  · rw [hrecord]
    exact untilStop_eq_finished
  · intro m
    rw [m.callbacks_eq skip]
    simp only [skip, decide_eq_true_eq]
    rfl
  · intro m
    simpa [skip] using m.filter_isOfNode_callbacks skip
  · exact ⟨n.entered_perm skip, n.left_perm skip⟩

/-- The assignment `x = y = lambda: z`. -/
def functionAssign : Node :=
  .ofBody [.mk (.assign [.mk (.name "x" .store) ⟨1, 0⟩, .mk (.name "y" .store) ⟨1, 4⟩]
    (.mk (.lambda [] (.mk (.name "z" .load) ⟨1, 16⟩)) ⟨1, 8⟩)) ⟨1, 0⟩]

/-- Stops at the name `y` and skips functions. -/
def stopAtY (n : Node) : Answer :=
  match n.kind with
  | .name "y" _ => .stop
  | .lambda .. => .skip
  | _ => .descend

/-- The visitor that counts its calls. -/
def Visitor.counting (answer : Node → Answer) : Visitor Nat where
  visit n count := (answer n, count + 1)
  leave _ count := count + 1
  enterTarget _ _ count := count + 1
  leaveTarget _ _ count := count + 1

/-- The walk stops in the second target at the eighth of fourteen calls. It has entered
both targets and left the first one. -/
theorem walk_functionAssign :
    let record := (walk (.recording stopAtY) functionAssign []).state
    (∀ n count, ((Visitor.counting stopAtY).visit n count).1 = stopAtY n) ∧
      (walk (.recording fun n => (stopAtY n).patient) functionAssign []).state.length = 14 ∧
      walk (.counting stopAtY) functionAssign 0 = .stopped 8 ∧
      (record.filterMap entered?).map (·.2.location) = [⟨1, 0⟩, ⟨1, 4⟩] ∧
      (record.filterMap left?).map (·.2.location) = [⟨1, 0⟩] := by
  intro record
  have hanswer : ∀ n count, ((Visitor.counting stopAtY).visit n count).1 = stopAtY n :=
    fun _ _ => rfl
  obtain ⟨hwalk, -, -, -, -, hrecord⟩ :=
    walk_recorded (.counting stopAtY) stopAtY hanswer functionAssign 0
  dsimp only at hrecord
  rw [walk_recording_patient] at hrecord
  refine ⟨hanswer, ?_, ?_, ?_, ?_⟩
  · rw [walk_recording_patient]
    decide +kernel
  · rw [hwalk, hrecord]
    decide +kernel
  · simp only [record, hrecord]
    decide +kernel
  · simp only [record, hrecord]
    decide +kernel

end TypeTrace

import TypeTrace.Proofs.SlotHistory

/-!
# Runs of a slot

A slot is merged with other slots and filled from types, in any order, and each step says
whether it changed the slot. What a run leaves behind is what the start and the steps tell
together. What is known about a type can grow twice, from nothing to `Any` and from there to
a definite type, so a run changes its slot at most twice, however long it is.

Main results:

* `apply_eq_merge`: every step is a merge with what it tells;
* `merge_snd`: a merge says that it changed the slot exactly if it did;
* `count_true_run_add_le`: each change is paid for by what there was left to learn;
* `run_tells`: what a run leaves behind, and what its steps say.
-/

namespace TypeTrace

/-- A step of a run: the slot is merged with another one, or filled from a type. -/
inductive SlotStep where
  | merge (other : Slot)
  | refine (type : Ty)
  deriving DecidableEq, Repr

namespace SlotStep

/-- The slot after a step, and whether the step says that it changed the slot. -/
def apply (s : Slot) : SlotStep → Slot × Bool
  | merge other => s.merge other
  | refine t => s.refine t

/-- What a step tells about the slot. -/
def told : SlotStep → Slot
  | merge other => other
  | refine t => .ofTy t

theorem apply_eq_merge (s : Slot) (step : SlotStep) : step.apply s = s.merge step.told := by
  cases step with
  | merge other => rfl
  | refine t => exact s.refine_eq_merge t

end SlotStep

namespace Slot

/-! ## One step -/

/-- A merge says that it changed the slot exactly if the slot is another one now. -/
theorem merge_snd (s other : Slot) : (s.merge other).2 = decide ((s.merge other).1 ≠ s) := by
  cases s <;> cases other <;> simp [merge, yieldsTo]

/-- The number of times that what is known can still grow. -/
def growthLeft : Slot → Nat
  | .unresolved => 2
  | .inferredAny => 1
  | .concrete _ => 0

/-- A merge that changes the slot leaves less to grow. -/
theorem growthLeft_merge (s other : Slot) :
    (s.merge other).2.toNat + (s.merge other).1.growthLeft ≤ s.growthLeft := by
  cases s <;> cases other <;> simp [merge, yieldsTo, growthLeft]

/-! ## Whole runs -/

/-- The slot after a run of steps, and what the steps say, in order. -/
def run (s : Slot) : List SlotStep → Slot × List Bool
  | [] => (s, [])
  | step :: steps =>
    let next := step.apply s
    let rest := run next.1 steps
    (rest.1, next.2 :: rest.2)

@[simp]
theorem run_nil (s : Slot) : s.run [] = (s, []) :=
  rfl

theorem run_cons (s : Slot) (step : SlotStep) (steps : List SlotStep) :
    s.run (step :: steps) =
      (((step.apply s).1.run steps).1, (step.apply s).2 :: ((step.apply s).1.run steps).2) :=
  rfl

theorem run_append (s : Slot) (first second : List SlotStep) :
    s.run (first ++ second) =
      (((s.run first).1.run second).1, (s.run first).2 ++ ((s.run first).1.run second).2) := by
  induction first generalizing s with
  | nil => rfl
  | cons step first ih => rw [List.cons_append, run_cons, run_cons, ih, List.cons_append]

/-- Every step says something. -/
theorem length_run_snd (s : Slot) (steps : List SlotStep) :
    (s.run steps).2.length = steps.length := by
  induction steps generalizing s with
  | nil => rfl
  | cons step steps ih => rw [run_cons, List.length_cons, ih, List.length_cons]

theorem run_fst (s : Slot) (steps : List SlotStep) :
    (s.run steps).1 = together (s :: steps.map SlotStep.told) := by
  rw [← foldl_merge]
  induction steps generalizing s with
  | nil => rfl
  | cons step steps ih =>
      rw [run_cons, ih, SlotStep.apply_eq_merge, List.map_cons, List.foldl_cons]

theorem count_true_cons (b : Bool) (answers : List Bool) :
    (b :: answers).count true = b.toNat + answers.count true := by
  cases b <;> simp [Nat.add_comm]

/-- Each change in a run is paid for by what there was left to learn. -/
theorem count_true_run_add_le (s : Slot) (steps : List SlotStep) :
    (s.run steps).2.count true + (s.run steps).1.growthLeft ≤ s.growthLeft := by
  induction steps generalizing s with
  | nil => simp
  | cons step steps ih =>
      have hrest := ih (step.apply s).1
      have hstep := growthLeft_merge s step.told
      rw [← SlotStep.apply_eq_merge] at hstep
      rw [run_cons]
      dsimp only
      rw [count_true_cons]
      omega

theorem growthLeft_le_two (s : Slot) : s.growthLeft ≤ 2 := by
  cases s <;> simp [growthLeft]

/-- A run leaves behind what its start and its steps tell together: the first definite type,
or else `Any` if it was told at all. Each step says that it changed the slot exactly if the
slot before it is another one than the slot after it, and no more than two steps say so.
Filling a slot from a type is the same as merging it with what the type tells. -/
theorem run_tells (s : Slot) :
    (∀ steps, (s.run steps).1 = together (s :: steps.map SlotStep.told)) ∧
      (∀ steps, (s.run steps).2.length = steps.length ∧ (s.run steps).2.count true ≤ 2) ∧
      (∀ before step after,
        (s.run (before ++ step :: after)).2[before.length]? =
          some (decide ((s.run (before ++ [step])).1 ≠ (s.run before).1))) ∧
      ∀ t, s.refine t = s.merge (.ofTy t) := by
  refine ⟨s.run_fst, fun steps => ⟨s.length_run_snd steps, ?_⟩, ?_, s.refine_eq_merge⟩
  · have hpaid := s.count_true_run_add_le steps
    have htwo := s.growthLeft_le_two
    omega
  · -- What a step says comes right after what the steps before it say.
    intro before step after
    have hlength := s.length_run_snd before
    rw [run_append, run_append, List.getElem?_append_right (Nat.le_of_eq hlength), hlength,
      Nat.sub_self, run_cons, run_cons, List.getElem?_cons_zero, run_nil,
      SlotStep.apply_eq_merge, merge_snd]

end Slot

end TypeTrace

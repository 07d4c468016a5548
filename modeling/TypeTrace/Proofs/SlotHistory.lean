import TypeTrace.Types.Slot

/-!
# Histories of a slot

A slot that is merged with one slot after the other ends with the first definite type
that it meets. Filling a slot from a type is merging it with what the type tells, so
the same holds for slots that are filled from types.

Main results:

* `refine_eq_merge`: filling a slot from a type is a merge;
* `foldl_merge`: the slot after any number of merges;
* `foldl_refine`: the slot after it was filled from any number of types.
-/

namespace TypeTrace.Slot

/-- What slots tell together: the first definite type, or `Any` if there is no definite
type and one of them is `Any`. -/
def together (slots : List Slot) : Slot :=
  match slots.findSome? concrete? with
  | some t => .concrete t
  | none => if .inferredAny ∈ slots then .inferredAny else .unresolved

/-- Filling a slot from a type is merging it with what the type tells. -/
theorem refine_eq_merge (s : Slot) (t : Ty) : s.refine t = s.merge (.ofTy t) := by
  cases s <;> rfl

/-- A definite type that comes first is kept. -/
@[simp]
theorem together_concrete (t : Ty) (slots : List Slot) :
    together (.concrete t :: slots) = .concrete t :=
  rfl

/-- A slot that knows nothing adds nothing. -/
@[simp]
theorem together_unresolved (slots : List Slot) :
    together (.unresolved :: slots) = together slots := by
  have hany : (.inferredAny ∈ .unresolved :: slots) = (.inferredAny ∈ slots) := by
    simp
  unfold together
  rw [List.findSome?_cons]
  simp only [concrete?, hany]

/-- After `Any` only a definite type changes the outcome. -/
theorem together_inferredAny (slots : List Slot) :
    together (.inferredAny :: slots) =
      ((slots.findSome? concrete?).map concrete).getD .inferredAny := by
  unfold together
  rw [List.findSome?_cons]
  cases slots.findSome? concrete? <;> simp [concrete?]

/-- A slot stands for itself and for what it is merged with. -/
theorem together_merge (s other : Slot) (slots : List Slot) :
    together ((s.merge other).1 :: slots) = together (s :: other :: slots) := by
  cases s with
  | concrete t => rfl
  | unresolved => cases other <;> simp [merge, yieldsTo]
  | inferredAny =>
      cases other with
      | concrete t => rfl
      | unresolved | inferredAny =>
          rw [together_inferredAny, List.findSome?_cons]
          exact together_inferredAny slots

/-- A slot alone stands for itself. -/
theorem together_singleton (s : Slot) : together [s] = s := by
  cases s <;> rfl

/-- A slot that is merged with others ends as what all of them tell together. -/
theorem foldl_merge (s : Slot) (slots : List Slot) :
    slots.foldl (fun s other => (s.merge other).1) s = together (s :: slots) := by
  induction slots generalizing s with
  | nil => exact (together_singleton s).symm
  | cons other slots ih => rw [List.foldl_cons, ih, together_merge]

/-! ## Filling a slot from types -/

/-- What a slot becomes when it is filled from types. A definite type stays. If there
is none the first type that is an answer and not `Any` is taken, and `Any` only if
there is no such type. -/
def settledBy (s : Slot) (types : List Ty) : Slot :=
  match s with
  | .concrete t => .concrete t
  | s =>
    match types.find? fun t => ¬t.isPlaceholder ∧ ¬t.isAny with
    | some t => .concrete t
    | none => if s = .inferredAny ∨ .any ∈ types then .inferredAny else .unresolved

/-- A type is definite if it is an answer other than `Any`. -/
theorem concrete?_ofTy (t : Ty) :
    (ofTy t).concrete? = if ¬t.isPlaceholder ∧ ¬t.isAny then some t else none := by
  unfold ofTy
  cases t.isPlaceholder <;> cases t.isAny <;> rfl

/-- Only the type `Any` tells that `Any` was inferred. -/
theorem ofTy_eq_inferredAny {t : Ty} : ofTy t = .inferredAny ↔ t = .any := by
  constructor
  · intro h
    unfold ofTy at h
    split at h
    · exact absurd h (by simp)
    · split at h
      · cases t <;> simp_all [Ty.isAny]
      · exact absurd h (by simp)
  · rintro rfl
    rfl

/-- The first definite slot of some types is that of the first definite type. -/
theorem findSome?_ofTy (types : List Ty) :
    (types.map ofTy).findSome? concrete? =
      types.find? fun t => ¬t.isPlaceholder ∧ ¬t.isAny := by
  induction types with
  | nil => rfl
  | cons t types ih =>
      rw [List.map_cons, List.findSome?_cons, concrete?_ofTy, List.find?_cons, ih]
      by_cases h : ¬t.isPlaceholder ∧ ¬t.isAny
      · rw [if_pos h, decide_eq_true h]
      · rw [if_neg h, decide_eq_false h]

/-- `Any` is told exactly if it is among the types. -/
theorem inferredAny_mem_map_ofTy {types : List Ty} :
    .inferredAny ∈ types.map ofTy ↔ .any ∈ types := by
  rw [List.mem_map]
  constructor
  · rintro ⟨t, ht, hany⟩
    rwa [← ofTy_eq_inferredAny.1 hany]
  · intro h
    exact ⟨.any, h, rfl⟩

/-- The types that fill a slot settle it. -/
theorem together_map_ofTy (s : Slot) (types : List Ty) :
    together (s :: types.map ofTy) = s.settledBy types := by
  cases s with
  | concrete t => rfl
  | unresolved =>
      rw [together_unresolved]
      unfold together settledBy
      rw [findSome?_ofTy]
      simp only [inferredAny_mem_map_ofTy, reduceCtorEq, false_or]
  | inferredAny =>
      rw [together_inferredAny, findSome?_ofTy]
      unfold settledBy
      simp only [true_or, if_true]
      cases types.find? _ <;> rfl

/-- A slot that is filled from types ends as the types settle it. -/
theorem foldl_refine (s : Slot) (types : List Ty) :
    types.foldl (fun s t => (s.refine t).1) s = s.settledBy types := by
  rw [← together_map_ofTy, ← foldl_merge, List.foldl_map]
  simp only [refine_eq_merge]

end TypeTrace.Slot

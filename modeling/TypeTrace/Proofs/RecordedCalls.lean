import Mathlib.Data.List.Forall2
import Mathlib.Data.List.Perm.Basic
import TypeTrace.Proofs.Grouping
import TypeTrace.Proofs.ParameterTypes

/-!
# Parameters from recorded calls

The parameters of a function are listed by their names as these are met first. They can be
found in one pass over the recorded calls, which puts each new name at the end of a list and
files the types under their names, and the files are taken out again in the order of the
list. The list and the files stay in step, so this gives the same parameters.

Calls that were recorded in another order show the same parameters. What is known about
each of them is the same too, up to the order in which a union lists its members.

Main results:

* `pairwise_firstSeen`: names are listed in the order in which they are met first;
* `Tally.notes_ofCalls`, `Tally.params_ofCalls`: the pass keeps its list and its files in step;
* `observed_perm`: reordered calls show the same types;
* `ofSignatures_reordered`: the parameters do not depend on the order of the calls.
-/

namespace TypeTrace

/-! ## Names in order -/

/-- Names are listed in the order in which they are met first. -/
theorem pairwise_firstSeen (ns : List String) :
    (firstSeen ns).Pairwise fun m n => ns.idxOf m < ns.idxOf n := by
  induction ns with
  | nil => exact .nil
  | cons first ns ih =>
      rw [firstSeen, List.pairwise_cons]
      have hne : ∀ n ∈ (firstSeen ns).filter (· ≠ first), first ≠ n := fun n hn =>
        Ne.symm (of_decide_eq_true (List.mem_filter.1 hn).2)
      constructor
      · intro n hn
        rw [List.idxOf_cons_self, List.idxOf_cons_ne ns (hne n hn)]
        exact Nat.succ_pos _
      · refine (ih.filter _).imp_of_mem fun {m n} hm hn hlt => ?_
        rw [List.idxOf_cons_ne ns (hne m hm), List.idxOf_cons_ne ns (hne n hn)]
        exact Nat.succ_lt_succ hlt

theorem firstSeen_concat (ns : List String) (n : String) :
    firstSeen (ns ++ [n]) = if n ∈ ns then firstSeen ns else firstSeen ns ++ [n] := by
  induction ns with
  | nil => rfl
  | cons m ms ih =>
      rw [List.cons_append, firstSeen, firstSeen, ih]
      by_cases hmem : n ∈ ms
      · rw [if_pos hmem, if_pos (List.mem_cons_of_mem m hmem)]
      · by_cases hname : n = m
        · subst hname
          simp [hmem]
        · simp [hmem, hname]

/-! ## One pass over the calls -/

/-- What a pass over the recorded calls has noted so far. -/
structure Tally where
  /-- The names of the parameters, in the order in which they were met first. -/
  order : List String
  /-- The types that a parameter was met with, without the unsolved ones. -/
  observed : SortedMap String (List Ty)

namespace Tally

/-- Notes that a parameter was met with a type. A name that has no file yet is put in order. -/
def note (tally : Tally) (o : String × Ty) : Tally where
  order := if tally.observed.contains o.1 then tally.order else tally.order ++ [o.1]
  observed := tally.observed.upsert o.1 fun file? =>
    file?.getD [] ++ if o.2.isPlaceholder then [] else [o.2]

/-- The pass over all recorded calls. -/
def ofCalls (signatures : List Signature) : Tally :=
  signatures.foldl (fun tally s => s.params.foldl note tally) ⟨[], .empty⟩

/-- Takes the files of parameters out in order. -/
def takeOut : List String → SortedMap String (List Ty) → List Param
  | [], _ => []
  | name :: order, observed =>
    { name, slot := .ofTy (.join ((observed.find? name).getD [])) } ::
      takeOut order (observed.erase name)

/-- The parameters that the pass comes to. -/
def params (tally : Tally) : List Param := takeOut tally.order tally.observed

/-- The tally has noted parameters with their types: its list has the name of each, and it
has a file for just these names. -/
structure Notes (tally : Tally) (observed : List (String × Ty)) : Prop where
  order : tally.order = firstSeen (observed.map (·.1))
  find? : ∀ name, tally.observed.find? name =
    if name ∈ observed.map (·.1) then some (Param.observedTypes observed name) else none

/-- A name has types on file only if it was met. -/
theorem observedTypes_eq_nil {observed : List (String × Ty)} {name : String}
    (h : name ∉ observed.map (·.1)) : Param.observedTypes observed name = [] := by
  refine List.filterMap_eq_nil_iff.2 fun o ho => if_neg ?_
  rintro ⟨rfl, -⟩
  exact h (List.mem_map.2 ⟨o, ho, rfl⟩)

theorem observedTypes_concat (observed : List (String × Ty)) (o : String × Ty) (name : String) :
    Param.observedTypes (observed ++ [o]) name =
      Param.observedTypes observed name ++
        if o.1 = name then (if o.2.isPlaceholder then [] else [o.2]) else [] := by
  unfold Param.observedTypes
  rw [List.filterMap_append]
  congr 1
  by_cases hname : o.1 = name
  · cases hplaceholder : o.2.isPlaceholder <;> simp [hname, hplaceholder]
  · simp [hname]

/-- The list and the files stay in step. -/
theorem notes_note {tally : Tally} {observed : List (String × Ty)}
    (h : tally.Notes observed) (o : String × Ty) : (tally.note o).Notes (observed ++ [o]) := by
  -- A name has its place in the list exactly if it has a file.
  have hmet : tally.observed.contains o.1 = true ↔ o.1 ∈ observed.map (·.1) := by
    unfold SortedMap.contains
    rw [h.find?]
    split <;> simp [*]
  constructor
  · rw [List.map_append, List.map_singleton, firstSeen_concat, ← h.order]
    simp only [note, hmet]
  · intro name
    rw [note, SortedMap.find?_upsert, observedTypes_concat, List.map_append, List.map_singleton]
    by_cases hname : name = o.1
    · subst hname
      rw [if_pos rfl, if_pos rfl, if_pos (List.mem_append_right _ List.mem_cons_self), h.find?]
      by_cases hmem : o.1 ∈ observed.map (·.1)
      · rw [if_pos hmem, Option.getD_some]
      · rw [if_neg hmem, Option.getD_none, observedTypes_eq_nil hmem]
    · have hmem : name ∈ observed.map (·.1) ++ [o.1] ↔ name ∈ observed.map (·.1) := by
        simp [hname]
      rw [if_neg hname, if_neg (Ne.symm hname), List.append_nil, h.find?]
      simp only [hmem]

theorem notes_foldl_note {tally : Tally} {observed : List (String × Ty)}
    (h : tally.Notes observed) (more : List (String × Ty)) :
    (more.foldl note tally).Notes (observed ++ more) := by
  induction more generalizing tally observed with
  | nil => rwa [List.append_nil]
  | cons o more ih =>
      have hmore := ih (notes_note h o)
      rwa [List.append_assoc, List.singleton_append] at hmore

/-- The pass notes all parameters of all calls. -/
theorem notes_ofCalls (signatures : List Signature) :
    (ofCalls signatures).Notes (signatures.flatMap (·.params)) := by
  have hempty : (⟨[], .empty⟩ : Tally).Notes [] := ⟨rfl, fun _ => rfl⟩
  unfold ofCalls
  rw [← List.foldl_flatMap]
  exact notes_foldl_note hempty _

/-- Distinct names find their files as they were, though those before them were taken out. -/
theorem takeOut_eq_map {order : List String} (h : order.Nodup)
    (observed : SortedMap String (List Ty)) :
    takeOut order observed =
      order.map fun name => ⟨name, .ofTy (.join ((observed.find? name).getD []))⟩ := by
  induction order generalizing observed with
  | nil => rfl
  | cons name order ih =>
      rcases List.nodup_cons.1 h with ⟨hname, horder⟩
      rw [takeOut, ih horder, List.map_cons]
      congr 1
      apply List.map_congr_left
      intro other hother
      have hne : other ≠ name := by
        rintro rfl
        exact hname hother
      rw [SortedMap.find?_erase, if_neg hne]

/-- The pass comes to the parameters of the calls. -/
theorem params_ofCalls (signatures : List Signature) :
    (ofCalls signatures).params = Param.ofSignatures signatures := by
  have hnotes := notes_ofCalls signatures
  unfold params Param.ofSignatures
  rw [hnotes.order, takeOut_eq_map (nodup_firstSeen _)]
  apply List.map_congr_left
  intro name hname
  rw [hnotes.find?, if_pos (mem_firstSeen.1 hname), Option.getD_some]

end Tally

/-! ## Calls in another order -/

/-- The same recorded calls in another order, each with its parameters in any order. -/
def SameCalls (signatures signatures' : List Signature) : Prop :=
  ∃ shuffled : List Signature, signatures.Perm shuffled ∧
    List.Forall₂ (fun s s' => s.params.Perm s'.params) shuffled signatures'

/-- Reordered calls show the same parameters with the same types. -/
theorem observed_perm {signatures signatures' : List Signature}
    (h : SameCalls signatures signatures') :
    (signatures.flatMap (·.params)).Perm (signatures'.flatMap (·.params)) := by
  rcases h with ⟨shuffled, hperm, hparams⟩
  refine (hperm.flatMap_right _).trans ?_
  rw [List.flatMap_def, List.flatMap_def]
  exact List.Perm.flatten_congr
    (List.forall₂_map_left_iff.2 (List.forall₂_map_right_iff.2 hparams))

/-- Slots that know the same, up to the order of the members if their type is a union. -/
def Slot.EqualUpToOrder : Slot → Slot → Prop
  | .concrete s, .concrete t => s.EqualUpToOrder t
  | s, s' => s = s'

theorem Slot.equalUpToOrder_ofTy {s t : Ty} (h : s.EqualUpToOrder t) :
    (Slot.ofTy s).EqualUpToOrder (.ofTy t) := by
  rcases h with rfl | ⟨ms, ns, rfl, rfl, hperm⟩
  · cases Slot.ofTy s with
    | concrete t => exact .inl rfl
    | unresolved | inferredAny => rfl
  · exact .inr ⟨ms, ns, rfl, rfl, hperm⟩

namespace Param

/-- The parameters that recorded calls show. They have distinct names, one for each name
that a call has, in the order in which these are met first, and one pass over the calls
finds them. Calls in another order, each with its parameters in any order, show the same
names, and what is known about each parameter is the same up to the order in which a union
lists its members. -/
theorem ofSignatures_reordered (signatures : List Signature) :
    let names := (signatures.flatMap (·.params)).map (·.1)
    let params := ofSignatures signatures
    (params.map name).Nodup ∧
      (params.map name).Pairwise (fun m n => names.idxOf m < names.idxOf n) ∧
      (∀ n, n ∈ params.map name ↔ n ∈ names) ∧
      (Tally.ofCalls signatures).params = params ∧
      ∀ signatures', SameCalls signatures signatures' →
        ((ofSignatures signatures').map name).Perm (params.map name) ∧
          ∀ p ∈ params, ∀ p' ∈ ofSignatures signatures', p.name = p'.name →
            p.slot.EqualUpToOrder p'.slot := by
  intro names params
  have hnames : params.map name = firstSeen names := map_name_ofSignatures signatures
  rw [hnames]
  refine ⟨nodup_firstSeen names, pairwise_firstSeen names, fun n => mem_firstSeen,
    Tally.params_ofCalls signatures, ?_⟩
  intro signatures' hsame
  have hobserved := observed_perm hsame
  constructor
  · rw [map_name_ofSignatures]
    refine (List.perm_ext_iff_of_nodup (nodup_firstSeen _) (nodup_firstSeen _)).2 fun n => ?_
    rw [mem_firstSeen, mem_firstSeen]
    exact (hobserved.map (·.1)).mem_iff.symm
  · intro p hp p' hp' hname
    rw [slot_of_mem_ofSignatures hp, slot_of_mem_ofSignatures hp', ← hname]
    exact Slot.equalUpToOrder_ofTy (Ty.join_perm (hobserved.filterMap _))

/-- Two recorded calls, and the same calls the other way round with their parameters
swapped. The union for `x` lists its members in another order, and `y` is first. -/
theorem ofSignatures_swapped :
    let signatures : List Signature :=
      [⟨[("x", .named "int" []), ("y", .nothing)]⟩,
        ⟨[("x", .union [.named "str" [], .named "int" []]), ("y", .any)]⟩]
    let signatures' : List Signature :=
      [⟨[("y", .any), ("x", .union [.named "str" [], .named "int" []])]⟩,
        ⟨[("y", .nothing), ("x", .named "int" [])]⟩]
    SameCalls signatures signatures' ∧ ofSignatures signatures ≠ ofSignatures signatures' ∧
      ((ofSignatures signatures').map name).Perm ((ofSignatures signatures).map name) ∧
      ∀ p ∈ ofSignatures signatures, ∀ p' ∈ ofSignatures signatures', p.name = p'.name →
        p.slot.EqualUpToOrder p'.slot := by
  intro signatures signatures'
  have hsame : SameCalls signatures signatures' :=
    ⟨signatures.reverse, .swap _ _ _, .cons (.swap _ _ _) (.cons (.swap _ _ _) .nil)⟩
  exact ⟨hsame, by decide +kernel, (ofSignatures_reordered signatures).2.2.2.2 signatures' hsame⟩

end Param

end TypeTrace

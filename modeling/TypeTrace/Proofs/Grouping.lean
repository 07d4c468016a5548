import TypeTrace.Proofs.FlatUnion

/-!
# Unions of unions

A union that is joined once more has the same effect as the types that it was made of,
wherever it stands among the types to be joined. So types can be joined one by one, in
blocks or all at once. Their order shows in the order of the members of the union and in
nothing else.

Main results:

* `collect?_join`: a union contributes what its types contribute;
* `join_inner`: a union among the types to be joined may be replaced by its types;
* `join_perm`: types in another order have the same union up to the order of its members;
* `join_regrouped`: the union does not depend on how types are grouped and ordered.
-/

namespace TypeTrace.Ty

/-! ## What a union contributes -/

theorem mem_addMember {members : List Ty} {s t : Ty} :
    s ∈ addMember members t ↔ s ∈ members ∨ s = t := by
  unfold addMember
  by_cases h : t ∈ members
  · rw [if_pos h]
    refine ⟨Or.inl, ?_⟩
    rintro (hs | rfl)
    · exact hs
    · exact h
  · rw [if_neg h, List.mem_append, List.mem_singleton]

theorem mem_foldl_addMember {members ts : List Ty} {s : Ty} :
    s ∈ ts.foldl addMember members ↔ s ∈ members ∨ s ∈ ts := by
  induction ts generalizing members with
  | nil => simp
  | cons t ts ih => rw [List.foldl_cons, ih, mem_addMember, List.mem_cons, or_assoc]

/-- Only the first type of its kind counts when types are added to members. -/
theorem foldl_addMember_eraseDups (members ts : List Ty) :
    ts.eraseDups.foldl addMember members = ts.foldl addMember members := by
  induction ts using List.reverseRecOn with
  | nil => rfl
  | append_singleton ts t ih =>
      rw [← addMember_eraseDups, List.foldl_append, List.foldl_cons, List.foldl_nil]
      by_cases h : t ∈ ts
      · -- The type is a member already, on both sides.
        have hmember : t ∈ ts.foldl addMember members := mem_foldl_addMember.2 (.inr h)
        rw [addMember, if_pos (List.mem_eraseDups.2 h), ih, addMember, if_pos hmember]
      · rw [addMember, if_neg (mt List.mem_eraseDups.1 h), List.foldl_append, ih]
        rfl

theorem flatten_eq_singleton {t : Ty} (h : ∀ inner, t ≠ .union inner) : flatten t = [t] := by
  cases t with
  | union inner => exact absurd rfl (h inner)
  | _ => rfl

theorem flattenAll_eq_self {ts : List Ty} (h : ∀ t ∈ ts, ∀ inner, t ≠ .union inner) :
    flattenAll ts = ts := by
  induction ts with
  | nil => rfl
  | cons t ts ih =>
      rcases List.forall_mem_cons.1 h with ⟨ht, hts⟩
      rw [flattenAll, flatten_eq_singleton ht, ih hts, List.singleton_append]

/-- A type that is built from members contributes these members. -/
theorem gather?_flatten_ofMembers {flat : List Ty}
    (h : ∀ m ∈ flat, m ≠ .any ∧ m ≠ .nothing ∧ ∀ inner, m ≠ .union inner) (members : List Ty) :
    gather? members (flatten (ofMembers flat)) = some (flat.foldl addMember members) := by
  have hgather : gather? members flat = some (flat.foldl addMember members) := by
    have hany : .any ∉ flat := fun hmem => (h _ hmem).1 rfl
    have hfilter : flat.filter (· ≠ .nothing) = flat :=
      List.filter_eq_self.2 fun m hm => decide_eq_true (h m hm).2.1
    rw [gather?, if_neg hany, hfilter]
  have hopen : ∀ m ∈ flat, ∀ inner, m ≠ .union inner := fun m hm => (h m hm).2.2
  cases flat with
  | nil => rfl
  | cons t rest =>
      cases rest with
      | nil => rw [ofMembers, flatten_eq_singleton (hopen t List.mem_cons_self), hgather]
      | cons u rest =>
          have hunion : ofMembers (t :: u :: rest) = .union (t :: u :: rest) := rfl
          rw [hunion, flatten, flattenAll_eq_self hopen, hgather]

/-- A union contributes to another one what its types contribute. -/
theorem collect?_join (members types : List Ty) :
    collect? members (join types) = collectAll? members types := by
  rw [collect?_eq_gather?, collectAll?_eq_gather?, join_eq]
  by_cases hany : .any ∈ flattenAll types
  · rw [if_pos hany, gather?, gather?, if_pos hany]
    rfl
  · rw [if_neg hany, gather?_flatten_ofMembers fun m hm => isMember_of_mem_flatMembers hany hm,
      flatMembers, foldl_addMember_eraseDups, gather?, if_neg hany]

/-! ## Grouping -/

theorem join_congr {xs ys : List Ty} (h : collectAll? [] xs = collectAll? [] ys) :
    join xs = join ys := by
  unfold join
  rw [h]

/-- A union that stands among types may be replaced by the types it was made of. -/
theorem join_inner (before types after : List Ty) :
    join (before ++ join types :: after) = join (before ++ types ++ after) := by
  apply join_congr
  rw [List.append_assoc, collectAll?_append, collectAll?_append]
  congr 1
  funext members
  rw [collectAll?, collect?_join, collectAll?_append]

/-- The union of two unions is the union of all their types. -/
theorem join_join_join (xs ys : List Ty) : join [join xs, join ys] = join (xs ++ ys) := by
  calc join [join xs, join ys]
      = join (xs ++ [join ys]) := join_inner [] xs [join ys]
    _ = join (xs ++ ys ++ []) := join_inner xs ys []
    _ = join (xs ++ ys) := by rw [List.append_nil]

/-- A union of unions is the union of all their types. -/
theorem join_map_join (before : List Ty) (blocks : List (List Ty)) :
    join (before ++ blocks.map join) = join (before ++ blocks.flatten) := by
  induction blocks generalizing before with
  | nil => rfl
  | cons block blocks ih =>
      rw [List.map_cons, join_inner, ih, List.flatten_cons, List.append_assoc]

/-- Types that are joined to a union one after the other. -/
theorem foldl_join (types xs : List Ty) :
    xs.foldl (fun t x => join [t, x]) (join types) = join (types ++ xs) := by
  induction xs generalizing types with
  | nil => rw [List.foldl_nil, List.append_nil]
  | cons x xs ih =>
      have hjoin : join [join types, x] = join (types ++ [x]) := join_inner [] types [x]
      rw [List.foldl_cons, hjoin, ih, List.append_assoc, List.singleton_append]

/-! ## Order -/

/-- Two types that are equal but for the order of the members if they are unions. -/
def EqualUpToOrder (s t : Ty) : Prop :=
  s = t ∨ ∃ ms ns : List Ty, s = .union ms ∧ t = .union ns ∧ ms.Perm ns

theorem ofMembers_perm {ms ns : List Ty} (h : ms.Perm ns) :
    EqualUpToOrder (ofMembers ms) (ofMembers ns) := by
  match ms, ns, h.length_eq with
  | [], [], _ => exact .inl rfl
  | [s], [t], _ => exact .inl (List.singleton_perm_singleton.1 h)
  | s :: s' :: ms, t :: t' :: ns, _ => exact .inr ⟨_, _, rfl, rfl, h⟩

theorem flatMembers_perm {xs ys : List Ty} (h : (flattenAll xs).Perm (flattenAll ys)) :
    (flatMembers xs).Perm (flatMembers ys) := by
  refine (List.perm_ext_iff_of_nodup (nodup_eraseDups _) (nodup_eraseDups _)).2 fun m => ?_
  rw [List.mem_eraseDups, List.mem_eraseDups]
  exact (h.filter _).mem_iff

/-- Types in another order have the same union up to the order of its members. -/
theorem join_perm {xs ys : List Ty} (h : xs.Perm ys) : EqualUpToOrder (join xs) (join ys) := by
  have hflat : (flattenAll xs).Perm (flattenAll ys) := by
    rw [flattenAll_eq_flatMap, flattenAll_eq_flatMap]
    exact h.flatMap_right flatten
  rw [join_eq, join_eq]
  by_cases hany : .any ∈ flattenAll xs
  · rw [if_pos hany, if_pos (hflat.mem_iff.1 hany)]
    exact .inl rfl
  · rw [if_neg hany, if_neg (mt hflat.mem_iff.2 hany)]
    exact ofMembers_perm (flatMembers_perm hflat)

/-- The union of types does not depend on how they are grouped: two blocks may be joined
first, or any number of blocks, a union may be joined once more, and types may be added one
by one to the union of those before them. In another order the types have the same union,
up to the order of its members. -/
theorem join_regrouped (xs : List Ty) :
    (∀ ys, join (xs ++ ys) = join [join xs, join ys]) ∧
      (∀ blocks : List (List Ty), join (blocks.map join) = join blocks.flatten) ∧
      join [join xs] = join xs ∧
      (∀ types, xs.foldl (fun t x => join [t, x]) (join types) = join (types ++ xs)) ∧
      ∀ xs', xs'.Perm xs → EqualUpToOrder (join xs') (join xs) := by
  refine ⟨fun ys => (join_join_join xs ys).symm, join_map_join [], ?_,
    fun types => foldl_join types xs, fun xs' => join_perm⟩
  have hjoin := join_inner [] xs []
  rwa [List.nil_append, List.nil_append, List.append_nil] at hjoin

/-- Types with a nested union, an empty one and a duplicate, first in one order and then in
another. The members of the two unions are in another order too. -/
theorem join_swapped :
    let xs : List Ty := [.named "str" [], .union [.union [], .named "int" []], .named "str" []]
    let xs' : List Ty := [.union [.union [], .named "int" []], .named "str" [], .named "str" []]
    xs'.Perm xs ∧ EqualUpToOrder (join xs') (join xs) ∧ join xs' ≠ join xs := by
  intro xs xs'
  have hperm : xs'.Perm xs := List.Perm.swap _ _ _
  exact ⟨hperm, (join_regrouped xs).2.2.2.2 xs' hperm, by decide⟩

end TypeTrace.Ty

import TypeTrace.Proofs.FlatUnion
import TypeTrace.Proofs.ParameterTypes

/-!
# Unsolved types among the types of a parameter

The types that a parameter was met with are put together without those that stand for an
unsolved type. A union is no such type, whatever its members are, so what it lists stays.
Unions are opened only afterwards, and then an unsolved member stands beside the others.

Main results:

* `Ty.mem_members_of_join`: the members of a union of types;
* `mem_flattenAll_observedTypes`: an unsolved type is left only inside unions;
* `unsolved_mem_ofSignatures`: which unsolved types the type of a parameter has as members.
-/

namespace TypeTrace

theorem Ty.mem_members_of_join {types members : List Ty} (h : join types = .union members)
    (m : Ty) : m ∈ members ↔ m ≠ .nothing ∧ m ∈ flattenAll types := by
  rw [join_eq] at h
  by_cases hany : .any ∈ flattenAll types
  · rw [if_pos hany] at h
    exact nomatch h
  · rw [if_neg hany] at h
    have hflat : ∀ t ∈ flatMembers types, ∀ inner, t ≠ .union inner :=
      fun t ht => (isMember_of_mem_flatMembers hany ht).2.2
    rw [(eq_of_ofMembers_eq_union hflat h).1, flatMembers, List.mem_eraseDups, List.mem_filter,
      decide_eq_true_iff, and_comm]

theorem Slot.of_ofTy_eq_concrete {s t : Ty} (h : ofTy s = .concrete t) :
    s = t ∧ t.isPlaceholder = false := by
  have hconcrete := congrArg concrete? h
  rw [concrete?_ofTy] at hconcrete
  rcases Option.ite_none_right_eq_some.1 hconcrete with ⟨⟨hsolved, -⟩, ⟨⟩⟩
  exact ⟨rfl, Bool.eq_false_iff.2 hsolved⟩

namespace Param

open Ty

theorem mem_observedTypes {observed : List (String × Ty)} {name : String} {t : Ty} :
    t ∈ observedTypes observed name ↔ (name, t) ∈ observed ∧ t.isPlaceholder = false := by
  unfold observedTypes
  rw [List.mem_filterMap]
  constructor
  · rintro ⟨⟨other, s⟩, hs, hsome⟩
    rcases Option.ite_none_right_eq_some.1 hsome with ⟨⟨rfl, hsolved⟩, ⟨⟩⟩
    exact ⟨hs, Bool.eq_false_iff.2 hsolved⟩
  · rintro ⟨ht, hsolved⟩
    exact ⟨(name, t), ht, if_pos ⟨rfl, Bool.eq_false_iff.1 hsolved⟩⟩

/-- An unsolved type that is left when unions are opened was in one of them. -/
theorem mem_flattenAll_observedTypes {observed : List (String × Ty)} {name : String} {m : Ty}
    (hm : m.isPlaceholder = true) :
    m ∈ flattenAll (observedTypes observed name) ↔
      ∃ inner, (name, .union inner) ∈ observed ∧ m ∈ flattenAll inner := by
  rw [flattenAll_eq_flatMap, List.mem_flatMap]
  constructor
  · rintro ⟨t, ht, hmem⟩
    rcases mem_observedTypes.1 ht with ⟨hobserved, hsolved⟩
    cases t with
    | union inner => exact ⟨inner, hobserved, hmem⟩
    | _ =>
        -- Any other type lists just itself, and the unsolved ones were left out.
        rw [List.mem_singleton.1 hmem, hsolved] at hm
        exact absurd hm Bool.false_ne_true
  · rintro ⟨inner, hobserved, hmem⟩
    exact ⟨.union inner, mem_observedTypes.2 ⟨hobserved, rfl⟩, hmem⟩

/-- The type of a parameter is never an unsolved type. If it is a union, the unsolved types
among its members are those that are listed, directly or in a nested union, by a union that
the parameter was met with. The empty type is never a member. -/
theorem unsolved_mem_ofSignatures {signatures : List Signature} {p : Param}
    (hp : p ∈ ofSignatures signatures) {t : Ty} (ht : p.slot = .concrete t) :
    t.isPlaceholder = false ∧
      ∀ members, t = .union members → ∀ m : Ty, m.isPlaceholder = true →
        (m ∈ members ↔ m ≠ .nothing ∧
          ∃ s ∈ signatures, ∃ inner, (p.name, .union inner) ∈ s.params ∧ m ∈ flattenAll inner) := by
  rw [slot_of_mem_ofSignatures hp] at ht
  rcases Slot.of_ofTy_eq_concrete ht with ⟨hjoin, hsolved⟩
  refine ⟨hsolved, ?_⟩
  rintro members rfl m hm
  rw [mem_members_of_join hjoin, mem_flattenAll_observedTypes hm]
  refine and_congr_right fun _ => ?_
  constructor
  · rintro ⟨inner, hobserved, hmem⟩
    rcases List.mem_flatMap.1 hobserved with ⟨s, hs, hparam⟩
    exact ⟨s, hs, inner, hparam, hmem⟩
  · rintro ⟨s, hs, inner, hparam, hmem⟩
    exact ⟨inner, List.mem_flatMap.2 ⟨s, hs, hparam⟩, hmem⟩

/-- Calls at which `x` was met with unsolved types alone and inside unions. -/
def partlySolved : List Signature :=
  [⟨[("x", .unknown)]⟩, ⟨[("x", .union [.nothing, .union [.named "~unknown2" []]])]⟩,
    ⟨[("x", .named "int" []), ("y", .unknown)]⟩]

/-- The unsolved type from the nested union is a member beside `int`. The one that was met
alone is not. -/
theorem unsolved_mem_partlySolved :
    let t : Ty := .union [.named "~unknown2" [], .named "int" []]
    ⟨"x", .concrete t⟩ ∈ ofSignatures partlySolved ∧ t.isPlaceholder = false ∧
      (.named "~unknown2" [] ∈ [Ty.named "~unknown2" [], .named "int" []] ↔
        Ty.named "~unknown2" [] ≠ .nothing ∧ ∃ s ∈ partlySolved, ∃ inner,
          ("x", .union inner) ∈ s.params ∧ .named "~unknown2" [] ∈ flattenAll inner) := by
  intro t
  have hp : ⟨"x", .concrete t⟩ ∈ ofSignatures partlySolved := by decide
  rcases unsolved_mem_ofSignatures hp rfl with ⟨hsolved, hmembers⟩
  exact ⟨hp, hsolved, hmembers _ rfl (.named "~unknown2" []) (by decide)⟩

/-- An unsolved type that was met inside a union is a member of the type of the parameter. -/
theorem unsolved_mem_of_union :
    let members : List Ty := [.unknown, .named "int" []]
    ofSignatures [⟨[("x", .union members)]⟩] = [⟨"x", .concrete (.union members)⟩] ∧
      .unknown ∈ members ∧ Ty.unknown.isPlaceholder = true := by
  decide

end Param

end TypeTrace

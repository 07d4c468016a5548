import Mathlib.Data.List.Induction
import TypeTrace.Types.Join

/-!
# Unions are flat

The union of a list of types is read off the list with all nested unions opened: `Any`
absorbs all else, the empty type adds nothing, and of equal types the first one stays.

The union can also be computed by a loop over a stack, which puts the members of a nested
union back on the stack. Such a pass makes the stack longer, but there is one type less to
look at in all the unions on it, so the loop ends.

Main results:

* `collectAll?_eq_gather?`: the members of a union from the opened list;
* `foldl_addMember`: members are collected as the first ones of their kind;
* `Worklist.pass_spec`, `Worklist.run_eq_answer`: what one pass and all passes of the loop do;
* `join_canonical`: the union of any types in closed form.
-/

namespace TypeTrace.Ty

/-! ## Opening unions -/

mutual

/-- The types that a type lists once its unions are opened, in order. -/
def flatten : Ty → List Ty
  | .union members => flattenAll members
  | t => [t]

/-- The types that a list comes to once all unions are opened. -/
def flattenAll : List Ty → List Ty
  | [] => []
  | t :: ts => flatten t ++ flattenAll ts

end

theorem flattenAll_eq_flatMap (ts : List Ty) : flattenAll ts = ts.flatMap flatten := by
  induction ts with
  | nil => rfl
  | cons t ts ih => rw [flattenAll, List.flatMap_cons, ih]

theorem ne_union_of_mem_flatten {t s : Ty} (h : s ∈ flatten t) (members : List Ty) :
    s ≠ .union members := by
  induction t using Ty.induct with
  | step t ih =>
      cases t with
      | union inner =>
          rw [flatten, flattenAll_eq_flatMap] at h
          rcases List.mem_flatMap.1 h with ⟨u, hu, hs⟩
          exact ih u hu hs
      | _ =>
          rw [List.mem_singleton.1 h]
          exact Ty.noConfusion

/-- No union is left. -/
theorem ne_union_of_mem_flattenAll {ts : List Ty} {s : Ty} (h : s ∈ flattenAll ts)
    (members : List Ty) : s ≠ .union members := by
  rw [flattenAll_eq_flatMap] at h
  rcases List.mem_flatMap.1 h with ⟨t, -, hs⟩
  exact ne_union_of_mem_flatten hs members

/-! ## Collecting members -/

theorem addMember_eraseDups (ts : List Ty) (t : Ty) :
    addMember ts.eraseDups t = (ts ++ [t]).eraseDups := by
  unfold addMember
  rw [List.eraseDups_append]
  by_cases h : t ∈ ts
  · simp [h, List.removeAll, List.mem_eraseDups]
  · simp [h, List.removeAll, List.mem_eraseDups, List.eraseDups_cons]

/-- Members that are added one after the other are the first ones of their kind. -/
theorem foldl_addMember (ts : List Ty) : ts.foldl addMember [] = ts.eraseDups := by
  induction ts using List.reverseRecOn with
  | nil => rfl
  | append_singleton ts t ih =>
      rw [List.foldl_append, ih]
      exact addMember_eraseDups ts t

theorem nodup_eraseDups (ts : List Ty) : ts.eraseDups.Nodup := by
  induction ts using List.reverseRecOn with
  | nil => exact .nil
  | append_singleton ts t ih =>
      rw [← addMember_eraseDups]
      unfold addMember
      by_cases h : t ∈ ts.eraseDups
      · rw [if_pos h]
        exact ih
      · rw [if_neg h, List.nodup_append]
        refine ⟨ih, List.pairwise_singleton _ t, fun a ha b hb heq => ?_⟩
        rw [← List.mem_singleton.1 hb, ← heq] at h
        exact h ha

/-- Adds types that are no unions to members; none if `Any` is among them. -/
def gather? (members flat : List Ty) : Option (List Ty) :=
  if .any ∈ flat then none else some ((flat.filter (· ≠ .nothing)).foldl addMember members)

theorem gather?_append (members first second : List Ty) :
    gather? members (first ++ second) =
      (gather? members first).bind fun more => gather? more second := by
  unfold gather?
  by_cases hfirst : .any ∈ first
  · simp [hfirst]
  · by_cases hsecond : .any ∈ second <;> simp [hfirst, hsecond]

mutual

theorem collect?_eq_gather? : ∀ (members : List Ty) (t : Ty),
    collect? members t = gather? members (flatten t)
  | members, .union inner => by
      rw [collect?, flatten]
      exact collectAll?_eq_gather? members inner
  | _, .any | _, .nothing | _, .named _ _ | _, .callable _ _ | _, .tuple _ | _, .unknown => by rfl

/-- The members of a union are gathered from the opened list. -/
theorem collectAll?_eq_gather? : ∀ members ts : List Ty,
    collectAll? members ts = gather? members (flattenAll ts)
  | _, [] => by rfl
  | members, t :: ts => by
      rw [collectAll?, flattenAll, gather?_append, collect?_eq_gather? members t]
      congr 1
      funext more
      exact collectAll?_eq_gather? more ts

end

/-- The members of the union of types, if `Any` is not among them. -/
def flatMembers (types : List Ty) : List Ty :=
  ((flattenAll types).filter (· ≠ .nothing)).eraseDups

theorem join_eq (types : List Ty) :
    join types = if .any ∈ flattenAll types then .any else ofMembers (flatMembers types) := by
  unfold join
  rw [collectAll?_eq_gather?, gather?, foldl_addMember]
  by_cases h : .any ∈ flattenAll types
  · rw [if_pos h, if_pos h]
  · rw [if_neg h, if_neg h]
    rfl

/-! ## The loop -/

/-- The state of the loop. -/
structure Worklist where
  /-- The types that are still to be looked at. The last one is on top of the stack. -/
  stack : List Ty
  /-- The members found so far. -/
  members : List Ty

mutual

/-- The number of passes that a type takes when it is on the stack. -/
def weight : Ty → Nat
  | .union members => weightAll members + 1
  | _ => 1

/-- The number of passes that several types take. -/
def weightAll : List Ty → Nat
  | [] => 0
  | t :: ts => weight t + weightAll ts

end

theorem weightAll_append (first second : List Ty) :
    weightAll (first ++ second) = weightAll first + weightAll second := by
  induction first with
  | nil => rw [List.nil_append, weightAll, Nat.zero_add]
  | cons t ts ih => rw [List.cons_append, weightAll, weightAll, ih, Nat.add_assoc]

theorem weightAll_reverse (ts : List Ty) : weightAll ts.reverse = weightAll ts := by
  induction ts with
  | nil => rfl
  | cons t ts ih =>
      rw [List.reverse_cons, weightAll_append, ih, weightAll, weightAll, weightAll]
      omega

theorem collectAll?_append (members first second : List Ty) :
    collectAll? members (first ++ second) =
      (collectAll? members first).bind fun more => collectAll? more second := by
  induction first generalizing members with
  | nil => rfl
  | cons t ts ih =>
      rw [List.cons_append, collectAll?, collectAll?, Option.bind_assoc]
      congr 1
      funext more
      exact ih more

namespace Worklist

/-- The loop starts with all types on the stack, the first one on top. -/
def start (types : List Ty) : Worklist := { stack := types.reverse, members := [] }

/-- One pass of the loop takes the type from the top. It comes to the answer or to the
state for the next pass. -/
def pass (w : Worklist) : Ty ⊕ Worklist :=
  match w.stack.getLast? with
  | none => .inl (ofMembers w.members)
  | some .any => .inl .any
  | some .nothing => .inr { w with stack := w.stack.dropLast }
  | some (.union inner) => .inr { w with stack := w.stack.dropLast ++ inner.reverse }
  | some t => .inr { stack := w.stack.dropLast, members := addMember w.members t }

/-- The answer of the loop, if it ends within a number of passes. -/
def run : Nat → Worklist → Option Ty
  | 0, _ => none
  | passes + 1, w =>
    match w.pass with
    | .inl t => some t
    | .inr w => run passes w

/-- The union that is left to be computed. -/
def answer (w : Worklist) : Ty := (collectAll? w.members w.stack.reverse).elim .any ofMembers

theorem answer_start (types : List Ty) : (start types).answer = join types := by
  unfold answer start join
  rw [List.reverse_reverse]
  cases collectAll? [] types <;> rfl

theorem answer_concat (rest members : List Ty) (t : Ty) :
    answer ⟨rest ++ [t], members⟩ =
      ((collect? members t).bind fun more => collectAll? more rest.reverse).elim
        .any ofMembers := by
  unfold answer
  rw [List.reverse_append]
  rfl

theorem pass_concat (rest members : List Ty) (t : Ty) :
    pass ⟨rest ++ [t], members⟩ =
      match t with
      | .any => .inl .any
      | .nothing => .inr ⟨rest, members⟩
      | .union inner => .inr ⟨rest ++ inner.reverse, members⟩
      | t => .inr ⟨rest, addMember members t⟩ := by
  cases t <;> simp [pass]

/-- A pass comes to the answer, or it keeps the answer and leaves one type less to look at. -/
theorem pass_spec (w : Worklist) :
    w.pass = .inl w.answer ∨
      ∃ w', w.pass = .inr w' ∧ w'.answer = w.answer ∧
        weightAll w'.stack + 1 = weightAll w.stack := by
  rcases w with ⟨stack, members⟩
  induction stack using List.reverseRecOn with
  | nil => exact .inl rfl
  | append_singleton rest t _ =>
      rw [pass_concat, answer_concat]
      dsimp only
      rw [weightAll_append]
      cases t with
      | any => exact .inl rfl
      | union inner =>
          refine .inr ⟨_, rfl, ?_, ?_⟩
          · unfold answer
            rw [List.reverse_append, List.reverse_reverse, collectAll?_append]
            rfl
          · dsimp only
            rw [weightAll_append, weightAll_reverse]
            rfl
      | _ => exact .inr ⟨_, rfl, rfl, rfl⟩

/-- The loop ends with the answer once it has looked at all types. -/
theorem run_eq_answer {passes : Nat} (w : Worklist) (h : weightAll w.stack < passes) :
    w.run passes = some w.answer := by
  induction passes generalizing w with
  | zero => exact absurd h (Nat.not_lt_zero _)
  | succ passes ih =>
      rw [run]
      rcases w.pass_spec with hpass | ⟨w', hpass, hanswer, hweight⟩
      · rw [hpass]
      · rw [hpass, ← hanswer]
        exact ih w' (by omega)

end Worklist

/-! ## The union in closed form -/

/-- A union of members none of which is a union has at least two of them. -/
theorem eq_of_ofMembers_eq_union {flat members : List Ty}
    (hflat : ∀ m ∈ flat, ∀ inner, m ≠ .union inner) (h : ofMembers flat = .union members) :
    members = flat ∧ 2 ≤ flat.length := by
  cases flat with
  | nil => exact Ty.noConfusion h
  | cons t rest =>
      cases rest with
      | nil => exact absurd h (hflat t List.mem_cons_self members)
      | cons u rest =>
          have hlength : 2 ≤ (t :: u :: rest).length := Nat.le_add_left 2 rest.length
          exact ⟨(Ty.union.inj h).symm, hlength⟩

/-- What is left of opened types without `Any` are members of a union. -/
theorem isMember_of_mem_flatMembers {types : List Ty} (hany : .any ∉ flattenAll types) {m : Ty}
    (h : m ∈ flatMembers types) : m ≠ .any ∧ m ≠ .nothing ∧ ∀ inner, m ≠ .union inner := by
  rcases List.mem_filter.1 (List.mem_eraseDups.1 h) with ⟨hmem, hne⟩
  refine ⟨?_, of_decide_eq_true hne, ne_union_of_mem_flattenAll hmem⟩
  rintro rfl
  exact hany hmem

/-- The members of a union are no union, neither `Any` nor the empty type, and each is
listed once. -/
theorem members_of_join {types members : List Ty} (h : join types = .union members) :
    2 ≤ members.length ∧ members.Nodup ∧
      ∀ m ∈ members, m ≠ .any ∧ m ≠ .nothing ∧ ∀ inner, m ≠ .union inner := by
  rw [join_eq] at h
  by_cases hany : .any ∈ flattenAll types
  · rw [if_pos hany] at h
    exact absurd h (by simp)
  · rw [if_neg hany] at h
    have hflat : ∀ m ∈ flatMembers types,
        m ≠ .any ∧ m ≠ .nothing ∧ ∀ inner, m ≠ .union inner :=
      fun m hm => isMember_of_mem_flatMembers hany hm
    rcases eq_of_ofMembers_eq_union (fun m hm => (hflat m hm).2.2) h with ⟨rfl, hlength⟩
    exact ⟨hlength, nodup_eraseDups _, hflat⟩

/-- The union of types in closed form. It is found by a loop over a stack, which ends on
every input. -/
theorem join_canonical (types : List Ty) :
    let flat := flattenAll types
    let members := (flat.filter (· ≠ .nothing)).eraseDups
    (join types =
      if .any ∈ flat then .any
      else
        match members with
        | [] => .nothing
        | [t] => t
        | members => .union members) ∧
      (∀ passes, weightAll types < passes →
        (Worklist.start types).run passes = some (join types)) ∧
      ∀ members, join types = .union members →
        2 ≤ members.length ∧ members.Nodup ∧
          ∀ m ∈ members, m ≠ .any ∧ m ≠ .nothing ∧ ∀ inner, m ≠ .union inner := by
  refine ⟨join_eq types, fun passes h => ?_, fun members => members_of_join⟩
  have hweight : weightAll (Worklist.start types).stack < passes := by
    unfold Worklist.start
    rw [weightAll_reverse]
    exact h
  rw [Worklist.run_eq_answer _ hweight, Worklist.answer_start]

end TypeTrace.Ty

import Mathlib.Data.List.DropRight
import TypeTrace.Trace.Matching

/-!
# What a call asks for

A call asks by the last segment of the dotted name of its target. The name is put together
from all attributes down to the innermost one, but behind its last dot stands only what the
outermost attribute contributes. So the request of a call depends on the head of its target
and not on the expression whose attribute is called.

Main results:

* `isLastSegment_iff`: the last segment of a name by its place in the name;
* `lastSegment_append_dot`: what stands before a dot does not matter;
* `lastSegment_dottedName`: a dotted name has the last segment of its head;
* `call_asks_for_head`: what a call asks for, whatever receives it.
-/

namespace TypeTrace

/-! ## The last segment of a name -/

/-- Is `segment` what stands behind the last dot of the name, or the whole name if it has
no dot? -/
def IsLastSegment (segment name : String) : Prop :=
  '.' ∉ segment.toList ∧ (name = segment ∨ ∃ before, name = before ++ "." ++ segment)

/-- The last segment is the longest end of a name without a dot. -/
theorem toList_lastSegment (name : String) :
    (lastSegment name).toList = name.toList.rtakeWhile (· != '.') :=
  String.toList_ofList

theorem dot_notMem_lastSegment (name : String) : '.' ∉ (lastSegment name).toList := by
  intro hdot
  rw [toList_lastSegment] at hdot
  exact absurd (List.mem_rtakeWhile_imp hdot) (by decide)

/-- A name without a dot is one segment. -/
theorem lastSegment_eq_self {name : String} (h : '.' ∉ name.toList) : lastSegment name = name := by
  rw [← String.toList_inj, toList_lastSegment, List.rtakeWhile_eq_self_iff]
  intro c hc
  rw [bne_iff_ne]
  exact fun hdot => h (hdot ▸ hc)

/-- What stands before a dot does not matter. -/
theorem lastSegment_append_dot (before name : String) :
    lastSegment (before ++ "." ++ name) = lastSegment name := by
  have hreverse : (before ++ "." ++ name).toList.reverse =
      name.toList.reverse ++ '.' :: before.toList.reverse := by
    simp
  have hstop : ∀ l r : List Char,
      (l ++ '.' :: r).takeWhile (· != '.') = l.takeWhile (· != '.') := by
    intro l r
    induction l with
    | nil => rfl
    | cons c l ih => rw [List.cons_append, List.takeWhile_cons, List.takeWhile_cons, ih]
  unfold lastSegment
  rw [hreverse, hstop]

/-- Every name has one last segment. -/
theorem isLastSegment_iff {segment name : String} :
    IsLastSegment segment name ↔ segment = lastSegment name := by
  constructor
  · rintro ⟨hdot, rfl | ⟨before, rfl⟩⟩
    · exact (lastSegment_eq_self hdot).symm
    · rw [lastSegment_append_dot, lastSegment_eq_self hdot]
  · rintro rfl
    refine ⟨dot_notMem_lastSegment name, ?_⟩
    have hcut := List.rdropWhile_append_rtakeWhile (p := (· != '.')) (l := name.toList)
    rw [← toList_lastSegment] at hcut
    by_cases hnil : name.toList.rdropWhile (· != '.') = []
    · rw [hnil, List.nil_append, String.toList_inj] at hcut
      exact .inl hcut.symm
    · have hdot : (name.toList.rdropWhile (· != '.')).getLast hnil = '.' := by
        simpa using List.rdropWhile_last_not _ _ hnil
      have hbefore := List.dropLast_append_getLast hnil
      rw [hdot] at hbefore
      rw [← hbefore] at hcut
      refine .inr ⟨String.ofList (name.toList.rdropWhile (· != '.')).dropLast, ?_⟩
      rw [← String.toList_inj, String.toList_append, String.toList_append, String.toList_ofList]
      exact hcut.symm

/-! ## Heads -/

namespace Node

/-- What a call target contributes to the end of its dotted name. -/
def head : Node → String
  | .mk (.attr _ name _) _ => name
  | .mk (.call func _ _) _ => func.head
  | .mk (.lambda _ _) _ => "<lambda>"
  | .mk (.name id _) _ => id
  | .mk kind _ => kind.kindName

/-- The call target with another expression under its outermost attribute. -/
def withReceiver : Node → Node → Node
  | .mk (.attr _ name ctx) location, value => .mk (.attr value name ctx) location
  | .mk (.call func args keywords) location, value =>
    .mk (.call (func.withReceiver value) args keywords) location
  | n, _ => n

/-- A dotted name has the last segment of its head. -/
theorem lastSegment_dottedName (n : Node) : lastSegment n.dottedName = lastSegment n.head := by
  induction n using Node.induct with
  | step n ih =>
      rcases n with ⟨kind, location⟩
      cases kind with
      | attr value name ctx =>
          rw [dottedName, head]
          exact lastSegment_append_dot value.dottedName name
      | call func args keywords =>
          rw [dottedName, head]
          exact ih func List.mem_cons_self
      | _ => rfl

/-- The head does not depend on what is under the outermost attribute. -/
theorem head_withReceiver (n value : Node) : (n.withReceiver value).head = n.head := by
  induction n using Node.induct with
  | step n ih =>
      rcases n with ⟨kind, location⟩
      cases kind with
      | call func args keywords => exact ih func List.mem_cons_self
      | _ => rfl

end Node

/-! ## The request of a call -/

/-- A call asks on its own line for a trace of the call group with one name. It is the last
segment of the dotted name of the call and of the head of its target, whatever dots there
are in either. Another expression under the outermost attribute of the target changes
nothing, whatever is matched before. -/
theorem call_asks_for_head (func : Node) (args : List Node) (keywords : List (Keyword Node))
    (location : Location) :
    let call (func : Node) := Node.mk (.call func args keywords) location
    let segment := lastSegment func.head
    lastSegment (call func).dottedName = segment ∧
      IsLastSegment segment (call func).dottedName ∧ IsLastSegment segment func.head ∧
      (∀ (a : Aligner) (tr : Traversal), a.matchNode (call func) tr =
        .ok (answerAll a.store
          [⟨{ line := location.line, ops := OpGroup.calls.ops, symbols := [.str segment] },
            location⟩] tr)) ∧
      ∀ (value : Node) (a : Aligner) (tr : Traversal),
        a.matchNode (call (func.withReceiver value)) tr = a.matchNode (call func) tr := by
  intro call segment
  have hname : ∀ func, lastSegment (call func).dottedName = lastSegment func.head :=
    fun func => (call func).lastSegment_dottedName
  have hmatch : ∀ (func : Node) (a : Aligner) (tr : Traversal), a.matchNode (call func) tr =
      .ok (answerAll a.store
        [⟨{ line := location.line, ops := OpGroup.calls.ops,
            symbols := [.str (lastSegment func.head)] }, location⟩] tr) := by
    intro func a tr
    rw [← hname func]
    rfl
  refine ⟨hname func, isLastSegment_iff.2 (hname func).symm, isLastSegment_iff.2 rfl,
    hmatch func, fun value a tr => ?_⟩
  rw [hmatch, hmatch, Node.head_withReceiver]

/-- The attribute that is called has a dot in its name, and the name before it is empty. -/
example :
    let target := Node.mk (.attr (.mk (.name "" .load) ⟨1, 0⟩) "c.d" .load) ⟨1, 0⟩
    lastSegment (Node.mk (.call target [] []) ⟨1, 0⟩).dottedName = "d" := by
  decide +kernel

end TypeTrace

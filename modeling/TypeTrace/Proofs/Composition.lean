import TypeTrace.Proofs.LexicalScope
import TypeTrace.Proofs.Locality

/-!
# Statements one after the other

However assignments are nested in a statement, the skew is outside of all assignments
again when the statement was walked. So a module makes the requests of its statements
one after the other, and what is found for the first statements does not depend on
those that follow.

Main results:

* `skewAfterAll_calls_outside`: every tree gives the skew back;
* `requested_module`: the requests of a module, statement by statement;
* `align_append`: the records of a module from those of its two parts.
-/

namespace TypeTrace

namespace Aligner

/-! ## Every tree gives the skew back -/

/-- What each part of a walk keeps of the skew, all parts together keep. -/
theorem skewAfterAll_flatMap {a : Aligner} {P : Skew → Prop} {f : Node → List Callback}
    (nodes : List Node) (h : ∀ c ∈ nodes, ∀ s, P s → P (a.skewAfterAll (f c) s)) {s : Skew}
    (hs : P s) : P (a.skewAfterAll (nodes.flatMap f) s) := by
  induction nodes generalizing s with
  | nil => exact hs
  | cons c nodes ih =>
      rw [List.flatMap_cons, skewAfterAll_append]
      exact ih (fun d hd => h d (List.mem_cons_of_mem _ hd)) (h c List.mem_cons_self s hs)

/-- A walk that starts outside of targets ends outside of targets: each target is left
again, whatever is in it. -/
theorem inTarget_skewAfterAll (a : Aligner) (n : Node) {s : Skew} (hs : s.inTarget = false) :
    (a.skewAfterAll n.calls s).inTarget = false := by
  induction n using Node.induct generalizing s with
  | step n ih =>
      have htargets := skewAfterAll_flatMap (a := a) (P := fun s => s.inTarget = false)
        (f := fun t => .enterTarget n t :: (t.calls ++ [.leaveTarget n t])) n.kind.targets
        (s := a.skewAfter (.visit n) s)
        (fun t _ s' _ => by
          rw [skewAfterAll_cons, skewAfterAll_append]
          rfl) hs
      have hothers := skewAfterAll_flatMap (a := a) (P := fun s => s.inTarget = false)
        (f := Node.calls) n.kind.others
        (fun c hc s' hs' => ih c (List.mem_append_right _ hc) hs') htargets
      rw [Node.calls_eq, skewAfterAll_cons, skewAfterAll_append, skewAfterAll_append]
      exact hothers

/-- A walk that starts without the line of a value ends without one: an assignment sets
the line, but clears it when it is left. -/
theorem endLine_skewAfterAll (a : Aligner) (n : Node) {s : Skew} (hs : s.endLine = none) :
    (a.skewAfterAll n.calls s).endLine = none := by
  induction n using Node.induct generalizing s with
  | step n ih =>
      rw [Node.calls_eq, skewAfterAll_cons, skewAfterAll_append]
      cases hassign : n.kind.isAssign with
      | true =>
          rw [skewAfterAll_cons, skewAfterAll_nil]
          dsimp only [skewAfter]
          rw [hassign, if_pos rfl]
      | false =>
          have hvisit : (a.skewAfter (.visit n) s).endLine = none := by
            dsimp only [skewAfter]
            rw [targetLine?_eq_none hassign, hs, Option.none_or]
          have hothers := skewAfterAll_flatMap (a := a) (P := fun s => s.endLine = none)
            (f := Node.calls) n.kind.others
            (fun c hc s' hs' => ih c (List.mem_append_right _ hc) hs') hvisit
          rw [NodeKind.targets_eq_nil hassign, List.flatMap_nil, List.nil_append,
            skewAfterAll_cons, skewAfterAll_nil]
          dsimp only [skewAfter]
          rw [hassign, if_neg Bool.false_ne_true]
          exact hothers

/-- A tree that is walked outside of all assignments gives the skew back. -/
theorem skewAfterAll_calls_outside (a : Aligner) (n : Node) :
    a.skewAfterAll n.calls .outside = .outside := by
  have hline : (a.skewAfterAll n.calls .outside).endLine = none := a.endLine_skewAfterAll n rfl
  have htarget : (a.skewAfterAll n.calls .outside).inTarget = false :=
    a.inTarget_skewAfterAll n rfl
  rcases hskew : a.skewAfterAll n.calls .outside with ⟨endLine, inTarget⟩
  rw [hskew] at hline htarget
  cases hline
  cases htarget
  rfl

/-! ## The requests of a module -/

/-- A module makes the requests of its statements one after the other, each statement as
if it were alone. -/
theorem requested_module (a : Aligner) (body : List Node) (loc : Location) :
    a.requested (.mk (.module body) loc) = body.flatMap a.requested := by
  obtain ⟨-, hvisits⟩ := visits_flatMap (a := a) (P := (· = .outside)) (f := Node.calls)
    (g := fun c => a.visits c.calls .outside) body
    (fun c _ s hs => by
      rw [hs]
      exact ⟨a.skewAfterAll_calls_outside c, rfl⟩) rfl
  have hmodule : a.visits (Node.mk (.module body) loc).calls .outside =
      ⟨.mk (.module body) loc, loc.line⟩ :: body.flatMap fun c => a.visits c.calls .outside := by
    have hvisit : a.skewAfter (.visit (.mk (.module body) loc)) .outside = .outside := rfl
    rw [Node.calls_eq, visits_cons, hvisit, visits_append]
    exact congrArg _ ((List.append_nil _).trans hvisits)
  unfold requested
  rw [hmodule, List.flatMap_cons, Visit.requests_eq_nil rfl, List.nil_append, List.flatMap_assoc]

/-! ## Two parts of a module -/

/-- The lines on which aligning a tree asks for traces. -/
def linesAsked (a : Aligner) (n : Node) : List UInt32 := (a.requested n).map (·.request.line)

/-- The records of a module begin with those of its first statements, whatever follows
them. If the statements that follow ask on other lines, the records of both parts stand
one after the other. The requests of the module are those of both parts in any case, so
no assignment of the first part moves a name of the second one. -/
theorem align_append (a : Aligner) (first second : List Node) (loc loc₁ loc₂ : Location) :
    let whole := Node.mk (.module (first ++ second)) loc
    let part₁ := Node.mk (.module first) loc₁
    let part₂ := Node.mk (.module second) loc₂
    ∃ records records₁ records₂,
      a.align whole = .ok records ∧ a.align part₁ = .ok records₁ ∧
        a.align part₂ = .ok records₂ ∧
        a.requested whole = a.requested part₁ ++ a.requested part₂ ∧
        records₁ <+: records ∧
        ((∀ line ∈ a.linesAsked part₁, line ∉ a.linesAsked part₂) →
          records = records₁ ++ records₂) := by
  intro whole part₁ part₂
  have hrequested : a.requested whole = a.requested part₁ ++ a.requested part₂ := by
    rw [requested_module, requested_module, requested_module, List.flatMap_append]
  refine ⟨_, _, _, a.align_eq_serve whole, a.align_eq_serve part₁, a.align_eq_serve part₂,
    hrequested, ?_, ?_⟩
  · rw [hrequested]
    unfold serve
    rw [serveEach_append, answersOf_append]
    exact List.prefix_append _ _
  · intro hlines
    rw [hrequested]
    apply serve_append_of_disjoint
    intro r hr r' hr' hline
    apply hlines r.request.line (List.mem_map.2 ⟨r, hr, rfl⟩)
    exact List.mem_map.2 ⟨r', hr', hline.symm⟩

/-- The assignment `(y = z) = w` over three lines, which has another assignment as its
target, and a use of `y` on a fourth line, aligned for a version with the skew. -/
def nestedTarget : Aligner × List Node × List Node :=
  ({ store := .ofTraces "" [(2, ⟨.storeName, .str "y", []⟩), (2, ⟨.loadName, .str "z", []⟩),
      (3, ⟨.loadName, .str "w", []⟩), (4, ⟨.loadName, .str "y", []⟩)]
     version := ⟨3, 6⟩ },
    [.mk (.assign [.mk (.assign [.mk (.name "y" .store) ⟨1, 1⟩] (.mk (.name "z" .load) ⟨2, 0⟩))
      ⟨1, 1⟩] (.mk (.name "w" .load) ⟨3, 0⟩)) ⟨1, 0⟩],
    [.mk (.expr (.mk (.name "y" .load) ⟨4, 0⟩)) ⟨4, 0⟩])

/-- The two statements ask on different lines, so their records stand one after the
other, and the use of `y` asks on its own line. -/
theorem align_nestedTarget :
    let (a, first, second) := nestedTarget
    (∀ line ∈ a.linesAsked (.ofBody first), line ∉ a.linesAsked (.ofBody second)) ∧
      ∃ records records₁ records₂,
        a.align (.ofBody (first ++ second)) = .ok records ∧
          a.align (.ofBody first) = .ok records₁ ∧ a.align (.ofBody second) = .ok records₂ ∧
          records = records₁ ++ records₂ ∧
          records₁.map (·.key) = [⟨2, 0⟩, ⟨2, 1⟩, ⟨3, 0⟩] ∧
          records₂.map (·.key) = [⟨4, 0⟩] := by
  have hlines : ∀ line ∈ nestedTarget.1.linesAsked (.ofBody nestedTarget.2.1),
      line ∉ nestedTarget.1.linesAsked (.ofBody nestedTarget.2.2) := by
    have hfirst : nestedTarget.1.linesAsked (.ofBody nestedTarget.2.1) = [2, 2, 3] := by
      decide +kernel
    have hsecond : nestedTarget.1.linesAsked (.ofBody nestedTarget.2.2) = [4] := by
      decide +kernel
    rw [hfirst, hsecond]
    simp
  obtain ⟨records, records₁, records₂, halign, halign₁, halign₂, -, -, happend⟩ :=
    nestedTarget.1.align_append nestedTarget.2.1 nestedTarget.2.2 ⟨1, 0⟩ ⟨1, 0⟩ ⟨1, 0⟩
  refine ⟨hlines, records, records₁, records₂, halign, halign₁, halign₂, happend hlines, ?_, ?_⟩
  · rw [eq_serve_of_align halign₁]
    decide +kernel
  · rw [eq_serve_of_align halign₂]
    decide +kernel

end Aligner

end TypeTrace

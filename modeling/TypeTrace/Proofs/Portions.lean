import Mathlib.Data.Option.NAry
import TypeTrace.Proofs.Claiming

/-!
# Claims in portions

A request may be made several times, each time with a limit of its own. The calls share a
line of open entries: each takes a portion from its front and leaves the rest to the next one.
So it makes no difference in how many portions the entries are claimed.

Main results:

* `Request.openEntries_take_portion`: what is open after a call is what it left over;
* `Request.claim_portions`: the calls of one request, alone and one after the other.
-/

namespace TypeTrace

/-! ## Portions of a list -/

section Portions

variable {α : Type}

/-- What is left of a list when the items up to a limit are gone. -/
def beyond (limit : Option Nat) (l : List α) : List α :=
  match limit with
  | none => []
  | some n => l.drop n

theorem upTo_append_beyond (limit : Option Nat) (l : List α) :
    upTo limit l ++ beyond limit l = l := by
  cases limit with
  | none => exact List.append_nil l
  | some n => exact List.take_append_drop n l

@[simp]
theorem upTo_nil (limit : Option Nat) : upTo limit ([] : List α) = [] := by
  cases limit with
  | none => rfl
  | some n => exact List.take_nil

/-- Two portions in a row are one portion with the sum of the limits. Without one of the limits
there is none for both. -/
theorem upTo_add (limit limit' : Option Nat) (l : List α) :
    upTo (Option.map₂ (· + ·) limit limit') l =
      upTo limit l ++ upTo limit' (beyond limit l) := by
  rcases limit with _ | n
  · rw [Option.map₂_none_left, beyond, upTo_nil, List.append_nil]
  · rcases limit' with _ | n'
    · exact (List.take_append_drop n l).symm
    · exact List.take_add

end Portions

namespace Request

variable {store : Store} {r : Request} {tr : Traversal}

/-! ## Open entries -/

/-- The entries that a request could claim: those of its line that fit and are unclaimed. -/
def openEntries (r : Request) (store : Store) (tr : Traversal) : List Claim :=
  (store.entries r.line).filter (r.isOpen tr)

theorem nodup_openEntries (store : Store) (r : Request) (tr : Traversal) :
    ((r.openEntries store tr).map (·.key)).Nodup :=
  (store.nodup_entries r.line).sublist (List.filter_sublist.map _)

/-- Open are the unclaimed entries with an operation and a symbol of the request. -/
theorem isOpen_iff {c : Claim} :
    r.isOpen tr c = true ↔
      c.key ∉ tr.claimed ∧ c.trace.op ∈ r.ops ∧ ∃ s ∈ r.symbols, s.equal c.trace.symbol := by
  simp [isOpen, accepts, Traversal.isClaimed]

/-- Claims close the entries with their keys. -/
theorem openEntries_take (claims : List Claim) :
    r.openEntries store (tr.take claims) =
      (r.openEntries store tr).filter fun c => c.key ∉ claims.map (·.key) := by
  unfold openEntries
  rw [List.filter_filter]
  refine List.filter_congr fun c _ => ?_
  rw [Bool.eq_iff_iff, Bool.and_eq_true, isOpen_iff, isOpen_iff]
  simp only [Traversal.take, List.mem_append, List.mem_reverse, not_or, decide_eq_true_eq]
  tauto

/-- After a portion of the open entries was claimed, those beyond it are open. -/
theorem openEntries_take_portion (limit : Option Nat) :
    r.openEntries store (tr.take (upTo limit (r.openEntries store tr))) =
      beyond limit (r.openEntries store tr) := by
  rw [openEntries_take]
  have hnodup := nodup_openEntries store r tr
  have hsplit := upTo_append_beyond limit (r.openEntries store tr)
  generalize upTo limit (r.openEntries store tr) = portion at *
  generalize beyond limit (r.openEntries store tr) = rest at *
  rw [← hsplit] at hnodup ⊢
  rw [List.map_append, List.nodup_append] at hnodup
  have hgone : portion.filter (fun c => c.key ∉ portion.map (·.key)) = [] := by
    refine List.filter_eq_nil_iff.2 fun c hc => ?_
    rw [decide_eq_true_eq, not_not]
    exact List.mem_map_of_mem hc
  have hkept : rest.filter (fun c => c.key ∉ portion.map (·.key)) = rest := by
    refine List.filter_eq_self.2 fun c hc => ?_
    rw [decide_eq_true_eq]
    intro hkey
    exact hnodup.2.2 _ hkey _ (List.mem_map_of_mem hc) rfl
  rw [List.filter_append, hgone, hkept, List.nil_append]

/-! ## Calls of one request -/

theorem isClaimed_take (claims : List Claim) (key : TraceKey) :
    (tr.take claims).isClaimed key = true ↔
      tr.isClaimed key = true ∨ ∃ c ∈ claims, c.key = key := by
  simp [Traversal.isClaimed, Traversal.take, or_comm]

theorem claimedCount_take (claims : List Claim) :
    (tr.take claims).claimedCount = tr.claimedCount + claims.length := by
  simp [Traversal.claimedCount, Traversal.take, Nat.add_comm]

theorem claim_eq_portion (limit : Option Nat) (store : Store) (r : Request) (tr : Traversal) :
    r.claim limit store tr = (upTo limit (r.openEntries store tr),
      tr.take (upTo limit (r.openEntries store tr))) :=
  r.claim_eq limit store tr

/-- Two calls of a request are one call with the sum of their limits. -/
theorem claim_claim (limit limit' : Option Nat) (store : Store) (r : Request) (tr : Traversal) :
    let first := r.claim limit store tr
    let second := r.claim limit' store first.2
    r.claim (Option.map₂ (· + ·) limit limit') store tr = (first.1 ++ second.1, second.2) := by
  dsimp only
  rw [claim_eq_portion limit, claim_eq_portion limit', openEntries_take_portion,
    ← Traversal.take_append, ← upTo_add]
  exact claim_eq_portion _ store r tr

/-- A request gets the first entries of its line that were not claimed, have one of its
operations and equal one of its symbols, as many as the limit allows, in the order of their
indices. Their keys are claimed from then on, and nothing else changes. Two calls in a row get
and claim what one call with the sum of the limits does; after a call without a limit no call
of the same request gets anything. -/
theorem claim_portions (store : Store) (r : Request) (tr : Traversal) :
    (∀ limit,
      let (claims, tr') := r.claim limit store tr
      claims = upTo limit ((store.entries r.line).filter fun c =>
          c.key ∉ tr.claimed ∧ c.trace.op ∈ r.ops ∧ ∃ s ∈ r.symbols, s.equal c.trace.symbol) ∧
        claims.Pairwise (·.key.index < ·.key.index) ∧
        (∀ key, tr'.isClaimed key = true ↔
          tr.isClaimed key = true ∨ ∃ c ∈ claims, c.key = key) ∧
        tr'.claimedCount = tr.claimedCount + claims.length ∧
        tr'.assignEndLine = tr.assignEndLine ∧ tr'.inTarget = tr.inTarget) ∧
      (∀ limit limit',
        let (first, tr₁) := r.claim limit store tr
        let (second, tr₂) := r.claim limit' store tr₁
        r.claim (Option.map₂ (· + ·) limit limit') store tr = (first ++ second, tr₂)) ∧
      ∀ limit,
        let (_, tr') := r.claim none store tr
        r.claim limit store tr' = ([], tr') := by
  refine ⟨fun limit => ?_, fun limit limit' => claim_claim limit limit' store r tr,
    fun limit => ?_⟩
  · have hindices : (r.openEntries store tr).Pairwise (·.key.index < ·.key.index) :=
      (pairwise_entriesFrom r.line 0 _).filter _
    have hopen : r.openEntries store tr = (store.entries r.line).filter fun c =>
        c.key ∉ tr.claimed ∧ c.trace.op ∈ r.ops ∧ ∃ s ∈ r.symbols, s.equal c.trace.symbol := by
      refine List.filter_congr fun c _ => ?_
      rw [Bool.eq_iff_iff, isOpen_iff, decide_eq_true_eq]
    rw [claim_eq_portion, ← hopen]
    exact ⟨rfl, hindices.sublist (upTo_sublist limit _), isClaimed_take _, claimedCount_take _,
      rfl, rfl⟩
  · rw [claim_eq_portion none]
    dsimp only
    rw [claim_eq_portion limit, openEntries_take_portion, beyond, upTo_nil, Traversal.take_nil]

end Request

end TypeTrace

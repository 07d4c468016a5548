import TypeTrace.Proofs.Claiming
import TypeTrace.Trace.Matching

/-!
# Serving requests without a traversal

The requests of a tree are answered one after the other, and what they share is
only which traces are taken. Here a list of requests is served from that
knowledge alone: each request gets the first trace of its line that fits and that
no earlier request was given.

Main results:

* `PlacedRequest.of_pick?_eq_some`: what an answer says about the store;
* `answerAll_eq_serveEach`: answering requests during a traversal serves them;
* `serveEach_append`: requests that come later are served from what is left.
-/

namespace TypeTrace

/-! ## The reference -/

/-- A claim that is recorded at a place of the text. -/
def Claim.recordedAt (c : Claim) (location : Location) : Alignment := { c with location }

/-- The answer to a request: the first entry of its line that is not taken and
fits, at the place of the request. -/
def PlacedRequest.pick? (store : Store) (taken : List TraceKey) (r : PlacedRequest) :
    Option Alignment :=
  ((store.entries r.request.line).find? fun c =>
    c.key ∉ taken ∧ r.request.accepts c.trace).map (·.recordedAt r.location)

/-- What is taken once some more answers were given. -/
def takenAfter (answers : List Alignment) (taken : List TraceKey) : List TraceKey :=
  (answers.map (·.key)).reverse ++ taken

/-- Requests with their answers. Each request is served from what is not taken yet,
and its answer is taken from then on. -/
def serveEach (store : Store) :
    List TraceKey → List PlacedRequest → List (PlacedRequest × Option Alignment)
  | _, [] => []
  | taken, r :: rs =>
      let answer := r.pick? store taken
      (r, answer) :: serveEach store (takenAfter answer.toList taken) rs

/-- The answers that were given. -/
def answersOf (served : List (PlacedRequest × Option Alignment)) : List Alignment :=
  served.filterMap (·.2)

/-- The answers that requests get when nothing is taken at the start. -/
def serve (store : Store) (rs : List PlacedRequest) : List Alignment :=
  answersOf (serveEach store [] rs)

/-! ## Small facts about lists of answers -/

@[simp]
theorem takenAfter_nil (taken : List TraceKey) : takenAfter [] taken = taken :=
  rfl

theorem takenAfter_append (first second : List Alignment) (taken : List TraceKey) :
    takenAfter (first ++ second) taken = takenAfter second (takenAfter first taken) := by
  unfold takenAfter
  rw [List.map_append, List.reverse_append, List.append_assoc]

@[simp]
theorem answersOf_nil : answersOf [] = [] :=
  rfl

@[simp]
theorem answersOf_cons (p : PlacedRequest × Option Alignment)
    (served : List (PlacedRequest × Option Alignment)) :
    answersOf (p :: served) = p.2.toList ++ answersOf served := by
  rcases p with ⟨r, _ | answer⟩ <;> rfl

@[simp]
theorem answersOf_append (first second : List (PlacedRequest × Option Alignment)) :
    answersOf (first ++ second) = answersOf first ++ answersOf second :=
  List.filterMap_append

/-- Every request is served, in order. -/
@[simp]
theorem map_fst_serveEach (store : Store) (taken : List TraceKey) (rs : List PlacedRequest) :
    (serveEach store taken rs).map (·.1) = rs := by
  induction rs generalizing taken with
  | nil => rfl
  | cons r rs ih => rw [serveEach, List.map_cons, ih]

/-- Requests that come later are served from what the earlier ones have left. -/
theorem serveEach_append (store : Store) (taken : List TraceKey) (rs rs' : List PlacedRequest) :
    serveEach store taken (rs ++ rs') =
      serveEach store taken rs ++
        serveEach store (takenAfter (answersOf (serveEach store taken rs)) taken) rs' := by
  induction rs generalizing taken with
  | nil => rfl
  | cons r rs ih =>
      rw [List.cons_append, serveEach, serveEach, ih, answersOf_cons, takenAfter_append,
        List.cons_append]

/-! ## What an answer says -/

/-- An answer is an entry of the store on the line of the request. It was not taken,
it fits, and it stands at the place of the request. -/
theorem PlacedRequest.of_pick?_eq_some {store : Store} {taken : List TraceKey}
    {r : PlacedRequest} {answer : Alignment} (h : r.pick? store taken = some answer) :
    answer.toClaim ∈ store.entries r.request.line ∧ answer.key ∉ taken ∧
      r.request.accepts answer.trace = true ∧ answer.location = r.location := by
  rcases Option.map_eq_some_iff.1 h with ⟨c, hc, rfl⟩
  have hfit := List.find?_some hc
  rw [decide_eq_true_eq] at hfit
  exact ⟨List.mem_of_find?_eq_some hc, hfit.1, hfit.2, rfl⟩

/-! ## Answering during a traversal -/

/-- The claims that answers stand for. -/
def claimsOf (answers : List Alignment) : List Claim := answers.map (·.toClaim)

theorem claimsOf_append (first second : List Alignment) :
    claimsOf (first ++ second) = claimsOf first ++ claimsOf second :=
  List.map_append

/-- Making the claims of answers takes their keys. -/
theorem claimed_take_claimsOf (tr : Traversal) (answers : List Alignment) :
    (tr.take (claimsOf answers)).claimed = takenAfter answers tr.claimed := by
  unfold Traversal.take claimsOf takenAfter
  rw [List.map_map]
  rfl

/-- A request that is answered once gets what the reference picks. -/
theorem claim_one_eq_pick? (store : Store) (tr : Traversal) (r : PlacedRequest) :
    (r.request.claim (some 1) store tr).1.map (fun c => { c with location := r.location }) =
      (r.pick? store tr.claimed).toList := by
  have hopen : r.request.isOpen tr =
      fun c => decide (c.key ∉ tr.claimed ∧ r.request.accepts c.trace = true) := by
    funext c
    simp [Request.isOpen, Traversal.isClaimed]
  rw [Request.claim_eq]
  dsimp only [upTo]
  rw [List.take_one, List.head?_filter, hopen]
  unfold PlacedRequest.pick?
  cases (store.entries r.request.line).find? _ <;> rfl

/-- The claims of that answer. -/
theorem claimsOf_pick? (store : Store) (tr : Traversal) (r : PlacedRequest) :
    claimsOf (r.pick? store tr.claimed).toList = (r.request.claim (some 1) store tr).1 := by
  rw [← claim_one_eq_pick?, claimsOf, List.map_map]
  exact List.map_id _

/-- The traversal after a request was answered once. -/
theorem claim_one_snd (store : Store) (tr : Traversal) (r : PlacedRequest) :
    (r.request.claim (some 1) store tr).2 =
      tr.take (claimsOf (r.pick? store tr.claimed).toList) := by
  rw [claimsOf_pick?]
  exact Request.claim_snd _ _ _ _

/-- Answering requests one after the other gives the answers of the reference and
claims exactly these. -/
theorem answerAll_eq_serveEach (store : Store) (rs : List PlacedRequest) (tr : Traversal) :
    let answers := answersOf (serveEach store tr.claimed rs)
    answerAll store rs tr = (answers, tr.take (claimsOf answers)) := by
  induction rs generalizing tr with
  | nil => rfl
  | cons r rs ih =>
      have hrest := ih (r.request.claim (some 1) store tr).2
      rw [claim_one_snd, claimed_take_claimsOf] at hrest
      rw [answerAll, serveEach]
      dsimp only
      rw [claim_one_eq_pick?, claim_one_snd, hrest, answersOf_cons, claimsOf_append,
        Traversal.take_append]

end TypeTrace

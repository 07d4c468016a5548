import TypeTrace.Proofs.Visits

/-!
# Every trace is claimed once

A traversal is used by calls that look for traces or match a node, in any order
and number, and aligning a tree is one such run of calls. A journal keeps what
each call asked for and what it was given. Whatever the calls are, the keys in
the journal are distinct, each stands for a trace that fits a request of its call,
and the traces that count as claimed are those in the journal.

Main results:

* `Journal.InOrder.step`: one step keeps the accounts in order;
* `claims_accounted`: the accounts are in order after every run of steps and
  at every point of an alignment.
-/

namespace TypeTrace

/-! ## Steps and journals -/

/-- A step of a traversal. Callers look for traces and match nodes; a walk also
moves the skew along between two nodes. -/
inductive TraversalStep where
  | find (request : Request) (limit : Option Nat)
  | matchNode (n : Node)
  | move (skew : Skew)

/-- What one call asked for and what it returned. -/
structure JournalEntry where
  call : TraversalStep
  requests : List Request
  claims : List Claim

/-- A traversal with what its calls have returned so far, the first call first. -/
structure Journal where
  traversal : Traversal
  entries : List JournalEntry

namespace Journal

/-- The journal of a fresh traversal. -/
def fresh : Journal := { traversal := .fresh, entries := [] }

/-- All that was returned, in order. -/
def claims (j : Journal) : List Claim := j.entries.flatMap (·.claims)

/-- The keys that were returned, in order. -/
def keys (j : Journal) : List TraceKey := j.claims.map (·.key)

/-- The journal after one more call. -/
def add (j : Journal) (entry : JournalEntry) (tr : Traversal) : Journal :=
  { traversal := tr, entries := j.entries ++ [entry] }

theorem claims_add (j : Journal) (entry : JournalEntry) (tr : Traversal) :
    (j.add entry tr).claims = j.claims ++ entry.claims := by
  unfold claims add
  rw [List.flatMap_append, List.flatMap_singleton]

/-- The journal after one more step. A node without a rule gets nothing and leaves
the traversal as it is. -/
def step (a : Aligner) (j : Journal) : TraversalStep → Journal
  | .find r limit =>
      let (claims, tr) := r.claim limit a.store j.traversal
      j.add { call := .find r limit, requests := [r], claims } tr
  | .matchNode n =>
      match a.matchNode n j.traversal with
      | .error _ => j.add { call := .matchNode n, requests := [], claims := [] } j.traversal
      | .ok (found, tr) =>
          let visit : Visit := { node := n, nameLine := j.traversal.nameLine n.line }
          j.add
            { call := .matchNode n
              requests := (visit.requests a.store).map (·.request)
              claims := claimsOf found } tr
  | .move s =>
      let moved := { j.traversal with assignEndLine := s.endLine, inTarget := s.inTarget }
      { j with traversal := moved }

/-- Matching a node with a rule returns the answers to its requests. -/
theorem step_matchNode {a : Aligner} {j : Journal} {n : Node} (h : n.kind.hasMatchRule = true) :
    let requests := Visit.requests a.store ⟨n, j.traversal.nameLine n.line⟩
    let answered := answerAll a.store requests j.traversal
    j.step a (.matchNode n) =
      j.add
        { call := .matchNode n
          requests := requests.map (·.request)
          claims := claimsOf answered.1 } answered.2 := by
  intro requests answered
  unfold step
  dsimp only
  rw [Aligner.matchNode_eq, if_pos h]

/-- Matching a node without a rule returns nothing. -/
theorem step_matchNode_of_noRule {a : Aligner} {j : Journal} {n : Node}
    (h : n.kind.hasMatchRule = false) :
    j.step a (.matchNode n) =
      j.add { call := .matchNode n, requests := [], claims := [] } j.traversal := by
  unfold step
  dsimp only
  rw [Aligner.matchNode_eq, h, if_neg Bool.false_ne_true]

end Journal

/-- The journal of some steps on a fresh traversal. -/
def Aligner.perform (a : Aligner) (steps : List TraversalStep) : Journal :=
  steps.foldl (Journal.step a) .fresh

/-! ## Accounts in order -/

/-- Is a claim a fit for a request? It is on the line of the request, has one of the
operations and one of the symbols asked for. -/
def Request.Fits (r : Request) (c : Claim) : Prop :=
  c.key.line = r.line ∧ c.trace.op ∈ r.ops ∧ ∃ s ∈ r.symbols, s.equal c.trace.symbol = true

/-- The accounts of a journal over a store. -/
structure Journal.Accounted (store : Store) (j : Journal) : Prop where
  /-- No key is returned twice. -/
  distinct : j.keys.Nodup
  /-- What a call returns is in the store and fits one of its requests. -/
  genuine : ∀ e ∈ j.entries, ∀ c ∈ e.claims,
    store.get? c.key = some c.trace ∧ ∃ r ∈ e.requests, r.Fits c
  /-- Claimed is what was returned. -/
  isClaimed_iff : ∀ key, j.traversal.isClaimed key = true ↔ key ∈ j.keys
  /-- As many traces count as claimed as were returned. -/
  count_eq : j.traversal.claimedCount = j.claims.length
  count_le : j.traversal.claimedCount ≤ store.size

/-- Claims that may be returned for requests in a traversal: they are distinct and
unclaimed, and each is in the store and fits one of the requests. -/
structure Grants (store : Store) (tr : Traversal) (requests : List Request)
    (claims : List Claim) : Prop where
  distinct : (claims.map (·.key)).Nodup
  unclaimed : ∀ c ∈ claims, c.key ∉ tr.claimed
  genuine : ∀ c ∈ claims, store.get? c.key = some c.trace ∧ ∃ r ∈ requests, r.Fits c

theorem Request.accepts_iff {r : Request} {t : Trace} :
    r.accepts t = true ↔ t.op ∈ r.ops ∧ ∃ s ∈ r.symbols, s.equal t.symbol = true := by
  unfold accepts
  rw [Bool.and_eq_true, decide_eq_true_eq, List.any_eq_true]

/-- A claim of the store that is accepted on the line of a request fits it. -/
theorem Request.fits_of_mem_entries {store : Store} {r : Request} {c : Claim}
    (hmem : c ∈ store.entries r.line) (haccept : r.accepts c.trace = true) :
    store.get? c.key = some c.trace ∧ r.Fits c := by
  rcases Store.mem_entries.1 hmem with ⟨hline, hget⟩
  exact ⟨hget, hline, accepts_iff.1 haccept⟩

/-- What one request claims may be returned for it. -/
theorem grants_claim (store : Store) (tr : Traversal) (r : Request) (limit : Option Nat) :
    Grants store tr [r] (r.claim limit store tr).1 := by
  rw [Request.claim_eq]
  have hsub : (upTo limit ((store.entries r.line).filter (r.isOpen tr))).Sublist
      ((store.entries r.line).filter (r.isOpen tr)) := upTo_sublist _ _
  have hopen : ∀ c ∈ upTo limit ((store.entries r.line).filter (r.isOpen tr)),
      c ∈ store.entries r.line ∧ c.key ∉ tr.claimed ∧ r.accepts c.trace = true := by
    intro c hc
    rcases List.mem_filter.1 (hsub.subset hc) with ⟨hmem, h⟩
    simpa [Request.isOpen, Traversal.isClaimed] using And.intro hmem h
  constructor
  · exact (store.nodup_entries r.line).sublist ((hsub.trans List.filter_sublist).map _)
  · intro c hc
    exact (hopen c hc).2.1
  · intro c hc
    rcases Request.fits_of_mem_entries (hopen c hc).1 (hopen c hc).2.2 with ⟨hget, hfits⟩
    exact ⟨hget, r, List.mem_singleton_self r, hfits⟩

/-- What may be returned first, and what may be returned then, may be returned
together. -/
theorem Grants.append {store : Store} {tr : Traversal} {rs rs' : List Request}
    {first second : List Claim} (h : Grants store tr rs first)
    (h' : Grants store (tr.take first) rs' second) :
    Grants store tr (rs ++ rs') (first ++ second) := by
  have hnot : ∀ c ∈ second, c.key ∉ first.map (·.key) ∧ c.key ∉ tr.claimed := by
    intro c hc
    have hc' := h'.unclaimed c hc
    simpa [Traversal.take] using hc'
  constructor
  · rw [List.map_append, List.nodup_append]
    refine ⟨h.distinct, h'.distinct, ?_⟩
    intro key hkey key' hkey' heq
    rcases List.mem_map.1 hkey' with ⟨c, hc, rfl⟩
    exact (hnot c hc).1 (heq ▸ hkey)
  · intro c hc
    rcases List.mem_append.1 hc with hc | hc
    · exact h.unclaimed c hc
    · exact (hnot c hc).2
  · intro c hc
    rcases List.mem_append.1 hc with hc | hc
    · rcases h.genuine c hc with ⟨hget, r, hr, hfits⟩
      exact ⟨hget, r, List.mem_append_left _ hr, hfits⟩
    · rcases h'.genuine c hc with ⟨hget, r, hr, hfits⟩
      exact ⟨hget, r, List.mem_append_right _ hr, hfits⟩

/-- What a list of requests is answered may be returned for them. -/
theorem grants_answerAll (store : Store) (rs : List PlacedRequest) (tr : Traversal) :
    Grants store tr (rs.map (·.request)) (claimsOf (answerAll store rs tr).1) := by
  induction rs generalizing tr with
  | nil => constructor <;> simp [answerAll, claimsOf]
  | cons r rs ih =>
      have hfirst := grants_claim store tr r.request (some 1)
      have hrest := ih (r.request.claim (some 1) store tr).2
      rw [Request.claim_snd] at hrest
      rw [answerAll]
      dsimp only
      rw [Request.claim_snd, claim_one_eq_pick?, claimsOf_append, claimsOf_pick?, List.map_cons]
      exact hfirst.append hrest

/-- What serving requests returns may be returned for them. -/
theorem grants_serve (store : Store) (rs : List PlacedRequest) :
    Grants store .fresh (rs.map (·.request)) (claimsOf (serve store rs)) := by
  have h := grants_answerAll store rs .fresh
  rw [answerAll_eq_serveEach] at h
  exact h

/-- Serving gives no trace twice. -/
theorem nodup_serve (store : Store) (rs : List PlacedRequest) :
    ((serve store rs).map (·.key)).Nodup := by
  have hdistinct := (grants_serve store rs).distinct
  rw [claimsOf, List.map_map] at hdistinct
  exact hdistinct

/-- Serving gives traces of the store, with their keys. -/
theorem get?_of_mem_serve {store : Store} {rs : List PlacedRequest} {answer : Alignment}
    (h : answer ∈ serve store rs) : store.get? answer.key = some answer.trace :=
  ((grants_serve store rs).genuine answer.toClaim (List.mem_map.2 ⟨answer, h, rfl⟩)).1

namespace Journal

variable {store : Store} {j : Journal}

/-- The invariant of a run: claimed are the returned keys, the latest one first. -/
structure InOrder (store : Store) (j : Journal) : Prop where
  claimed_eq : j.traversal.claimed = j.keys.reverse
  distinct : j.keys.Nodup
  genuine : ∀ e ∈ j.entries, ∀ c ∈ e.claims,
    store.get? c.key = some c.trace ∧ ∃ r ∈ e.requests, r.Fits c

theorem inOrder_fresh : InOrder store fresh where
  claimed_eq := rfl
  distinct := List.nodup_nil
  genuine := by
    intro e he
    exact absurd he List.not_mem_nil

/-- Returning claims that may be returned keeps the accounts in order. -/
theorem InOrder.add (h : j.InOrder store) {e : JournalEntry} {tr : Traversal}
    (hgrants : Grants store j.traversal e.requests e.claims)
    (hclaimed : tr.claimed = (j.traversal.take e.claims).claimed) :
    (j.add e tr).InOrder store := by
  have hkeys : (j.add e tr).keys = j.keys ++ e.claims.map (·.key) := by
    unfold keys
    rw [claims_add, List.map_append]
  constructor
  · rw [hkeys, List.reverse_append, ← h.claimed_eq]
    exact hclaimed
  · rw [hkeys, List.nodup_append]
    refine ⟨h.distinct, hgrants.distinct, ?_⟩
    intro key hkey key' hkey' heq
    rcases List.mem_map.1 hkey' with ⟨c, hc, rfl⟩
    apply hgrants.unclaimed c hc
    rw [h.claimed_eq, List.mem_reverse, ← heq]
    exact hkey
  · intro e' he' c hc
    rcases List.mem_append.1 he' with hold | hnew
    · exact h.genuine e' hold c hc
    · rw [List.mem_singleton.1 hnew] at hc ⊢
      exact hgrants.genuine c hc

/-- One step keeps the accounts in order. -/
theorem InOrder.step {a : Aligner} (h : j.InOrder a.store) (s : TraversalStep) :
    (j.step a s).InOrder a.store := by
  cases s with
  | find r limit =>
      apply h.add
      · exact grants_claim a.store j.traversal r limit
      · exact congrArg Traversal.claimed (Request.claim_snd r limit a.store j.traversal)
  | matchNode n =>
      cases hmatch : n.kind.hasMatchRule with
      | true =>
          rw [step_matchNode hmatch]
          apply h.add
          · exact grants_answerAll a.store _ j.traversal
          · rw [answerAll_eq_serveEach]
      | false =>
          rw [step_matchNode_of_noRule hmatch]
          apply h.add
          · exact ⟨List.nodup_nil, by simp, by simp⟩
          · rfl
  | move skew => exact ⟨h.claimed_eq, h.distinct, h.genuine⟩

/-- A run of steps keeps the accounts in order. -/
theorem InOrder.run {a : Aligner} (h : j.InOrder a.store) (steps : List TraversalStep) :
    (steps.foldl (Journal.step a) j).InOrder a.store := by
  induction steps generalizing j with
  | nil => exact h
  | cons s steps ih => exact ih (h.step s)

/-- What the invariant says about counting. -/
theorem InOrder.accounted (h : j.InOrder store) : j.Accounted store := by
  have hcount : j.traversal.claimedCount = j.claims.length := by
    unfold Traversal.claimedCount
    rw [h.claimed_eq, List.length_reverse, keys, List.length_map]
  have hkeys : ∀ key ∈ j.keys, ∃ t, store.get? key = some t := by
    intro key hkey
    rcases List.mem_map.1 hkey with ⟨c, hc, rfl⟩
    rcases List.mem_flatMap.1 hc with ⟨e, he, hce⟩
    exact ⟨c.trace, (h.genuine e he c hce).1⟩
  constructor
  · exact h.distinct
  · exact h.genuine
  · intro key
    unfold Traversal.isClaimed
    rw [h.claimed_eq, decide_eq_true_eq, List.mem_reverse]
  · exact hcount
  · calc
      j.traversal.claimedCount = j.keys.length := by rw [hcount, keys, List.length_map]
      _ ≤ store.size := Store.length_le_size h.distinct hkeys

end Journal

/-! ## Aligning a tree is a run of steps -/

namespace Aligner

/-- The steps that one call of a walk stands for. -/
def stepsAt (a : Aligner) (c : Callback) (s : Skew) : List TraversalStep :=
  .move (a.skewAfter c s) ::
    match c with
    | .visit n => if n.kind.hasMatchRule then [.matchNode n] else []
    | _ => []

theorem stepsAt_visit (a : Aligner) (n : Node) (s : Skew) :
    a.stepsAt (.visit n) s =
      .move (a.skewAfter (.visit n) s) ::
        if n.kind.hasMatchRule then [.matchNode n] else [] :=
  rfl

/-- The steps that calls of a walk stand for, from a skew on. -/
def stepsOf (a : Aligner) : List Callback → Skew → List TraversalStep
  | [], _ => []
  | c :: calls, s => a.stepsAt c s ++ stepsOf a calls (a.skewAfter c s)

/-- The steps by which a tree is aligned. -/
def script (a : Aligner) (n : Node) : List TraversalStep := a.stepsOf n.calls .outside

end Aligner

/-- A journal agrees with a run of an alignment: the same traces are claimed, and the
calls of the journal are the matched nodes with what was found for them. -/
structure Journal.Tracks (j : Journal) (run : AlignRun) : Prop where
  claimed_eq : j.traversal.claimed = run.traversal.claimed
  entries_eq : j.entries.map (fun e => (e.call, e.claims)) =
    run.trail.map fun p => (.matchNode p.1, claimsOf p.2)

/-- A traversal is what is claimed and its skew. -/
theorem Traversal.ext_skew {tr tr' : Traversal} (hclaimed : tr.claimed = tr'.claimed)
    (hskew : tr.skew = tr'.skew) : tr = tr' := by
  cases tr
  cases tr'
  cases hclaimed
  cases hskew
  rfl

/-- One call of the walk does to a run what its steps do to a journal. -/
theorem Journal.Tracks.apply {a : Aligner} {j : Journal} {run : AlignRun} (h : j.Tracks run)
    (c : Callback) :
    ((a.stepsAt c run.traversal.skew).foldl (Journal.step a) j).Tracks
      (a.visitor.apply c run) := by
  cases c with
  | visit n =>
      have henter := a.enter_spec n run.traversal
      let moved := j.step a (.move (a.skewAfter (.visit n) run.traversal.skew))
      have hmoved : moved.traversal = a.enter n run.traversal :=
        Traversal.ext_skew (h.claimed_eq.trans henter.1.symm) henter.2.symm
      have happly : a.visitor.apply (.visit n) run = (a.visitor.visit n run).2 := rfl
      rw [happly, Aligner.stepsAt_visit, List.foldl_cons, Aligner.visit_spec]
      cases hmatch : n.kind.hasMatchRule with
      | true =>
          rw [if_pos rfl, if_pos rfl, List.foldl_cons, List.foldl_nil,
            Journal.step_matchNode hmatch, hmoved]
          constructor
          · rfl
          · rw [List.map_append, ← h.entries_eq]
            exact List.map_append
      | false =>
          rw [if_neg Bool.false_ne_true, if_neg Bool.false_ne_true, List.foldl_nil,
            List.append_nil, Visit.requests_eq_nil hmatch]
          exact ⟨h.claimed_eq.trans henter.1.symm, h.entries_eq⟩
  | leave n => exact ⟨h.claimed_eq.trans (a.exit_spec n run.traversal).1.symm, h.entries_eq⟩
  | enterTarget n t => exact ⟨h.claimed_eq, h.entries_eq⟩
  | leaveTarget n t => exact ⟨h.claimed_eq, h.entries_eq⟩

/-- Replaying the calls of a walk does to a run what their steps do to a journal. -/
theorem Journal.Tracks.replay {a : Aligner} {j : Journal} {run : AlignRun} (h : j.Tracks run)
    (calls : List Callback) :
    ((a.stepsOf calls run.traversal.skew).foldl (Journal.step a) j).Tracks
      (a.visitor.replay calls run) := by
  induction calls generalizing j run with
  | nil => exact h
  | cons c calls ih =>
      have hskew := (a.apply_visitor c run).2.2.1
      rw [Aligner.stepsOf, List.foldl_append, Visitor.replay_cons, ← hskew]
      exact ih (h.apply c)

/-- The script of a tree tracks its alignment. -/
theorem tracks_script (a : Aligner) (n : Node) : (a.perform (a.script n)).Tracks (a.run n) := by
  rw [Aligner.run_eq_replay]
  have hstart : Journal.fresh.Tracks .start := ⟨rfl, rfl⟩
  exact hstart.replay n.calls

/-! ## Accounts of whole runs -/

/-- Whatever is found and matched in one traversal, in any order, the accounts are in
order. Aligning a tree is such a run: it never fails, what it returns is what the
calls of its script return, and the accounts are in order after every step of it. -/
theorem claims_accounted (a : Aligner) :
    (∀ steps : List TraversalStep, (a.perform steps).Accounted a.store) ∧
      ∀ n : Node,
        a.align n = .ok (a.run n).found ∧
          (a.perform (a.script n)).entries.map (fun e => (e.call, e.claims)) =
            (a.run n).trail.map (fun p => (.matchNode p.1, claimsOf p.2)) ∧
          (a.perform (a.script n)).traversal.claimed = (a.run n).traversal.claimed ∧
          ∀ k, (a.perform ((a.script n).take k)).Accounted a.store := by
  have hall : ∀ steps, (a.perform steps).Accounted a.store := by
    intro steps
    exact (Journal.inOrder_fresh.run steps).accounted
  refine ⟨hall, ?_⟩
  intro n
  have htracks := tracks_script a n
  exact ⟨a.align_eq_found n, htracks.entries_eq, htracks.claimed_eq, fun k => hall _⟩

end TypeTrace

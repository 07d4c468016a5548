import TypeTrace.Proofs.Serving

/-!
# Lines as queues

A class of traces of one line works as a queue when each request either asks for
exactly the traces of the class or for none of them. The requests of the first sort
then get the traces of the class in order, whatever the others are and wherever they
stand.

Main results:

* `waiting_of_draws`, `waiting_of_spares`: what one request does to a queue;
* `serveEach_eq_mapIdx`: the answers of all requests that draw from a queue;
* `waiting_serveEach`: what is left of the queue;
* `filter_answersOf`: the answers that come from a queue, in order.
-/

namespace TypeTrace

variable {store : Store} {line : UInt32} {covers : Trace → Bool}

/-! ## The queue of a class -/

/-- The entries of a line that are of a class and not taken yet. -/
def Store.waiting (store : Store) (line : UInt32) (covers : Trace → Bool)
    (taken : List TraceKey) : List Claim :=
  (store.entries line).filter fun c => covers c.trace ∧ c.key ∉ taken

namespace Store

theorem mem_waiting {taken : List TraceKey} {c : Claim} :
    c ∈ store.waiting line covers taken ↔
      c ∈ store.entries line ∧ covers c.trace = true ∧ c.key ∉ taken := by
  unfold waiting
  rw [List.mem_filter, decide_eq_true_eq]

/-- Before anything is taken the queue has all entries of the class. -/
theorem waiting_nil (store : Store) (line : UInt32) (covers : Trace → Bool) :
    store.waiting line covers [] = (store.entries line).filter (covers ·.trace) := by
  unfold waiting
  apply List.filter_congr
  intro c _
  simp

theorem waiting_cons (store : Store) (line : UInt32) (covers : Trace → Bool) (key : TraceKey)
    (taken : List TraceKey) :
    store.waiting line covers (key :: taken) =
      (store.waiting line covers taken).filter (·.key ≠ key) := by
  unfold waiting
  rw [List.filter_filter]
  apply List.filter_congr
  intro c _
  rw [← Bool.decide_and, decide_eq_decide, List.mem_cons, not_or]
  tauto

theorem nodup_waiting (store : Store) (line : UInt32) (covers : Trace → Bool)
    (taken : List TraceKey) : ((store.waiting line covers taken).map (·.key)).Nodup :=
  (store.nodup_entries line).sublist (List.filter_sublist.map _)

end Store

/-! ## Requests at a queue -/

namespace PlacedRequest

/-- The request asks for exactly the traces of a class on a line. -/
def Draws (r : PlacedRequest) (line : UInt32) (covers : Trace → Bool) : Prop :=
  r.request.line = line ∧ ∀ t, r.request.accepts t = covers t

/-- The request asks for no trace of a class on a line. -/
def Spares (r : PlacedRequest) (line : UInt32) (covers : Trace → Bool) : Prop :=
  r.request.line = line → ∀ t, covers t = true → r.request.accepts t = false

/-- A request that draws from a queue gets the head of it. -/
theorem Draws.pick?_eq {r : PlacedRequest} (h : r.Draws line covers) (taken : List TraceKey) :
    r.pick? store taken =
      (store.waiting line covers taken).head?.map (·.recordedAt r.location) := by
  unfold pick? Store.waiting
  rw [h.1, List.head?_filter]
  congr 2
  funext c
  rw [h.2, decide_eq_decide]
  exact and_comm

/-- A request that draws from a queue takes the head of it. -/
theorem waiting_of_draws {r : PlacedRequest} (h : r.Draws line covers) (taken : List TraceKey) :
    store.waiting line covers (takenAfter (r.pick? store taken).toList taken) =
      (store.waiting line covers taken).tail := by
  have hnodup := store.nodup_waiting line covers taken
  rw [h.pick?_eq]
  cases hqueue : store.waiting line covers taken with
  | nil => exact hqueue
  | cons c rest =>
      have htaken : takenAfter [c.recordedAt r.location] taken = c.key :: taken := rfl
      rw [hqueue, List.map_cons, List.nodup_cons] at hnodup
      rw [List.head?_cons, Option.map_some, Option.toList_some, htaken, Store.waiting_cons, hqueue,
        List.filter_cons_of_neg (by simp), List.tail_cons]
      apply List.filter_eq_self.2
      intro d hd
      rw [decide_eq_true_eq]
      intro hkey
      exact hnodup.1 (List.mem_map.2 ⟨d, hd, hkey⟩)

/-- What answers a request that spares a queue does not wait in the queue. -/
theorem Spares.key_ne {r : PlacedRequest} (h : r.Spares line covers) {taken : List TraceKey}
    {answer : Alignment} (hanswer : r.pick? store taken = some answer) {c : Claim}
    (hc : c ∈ store.entries line) (hcovers : covers c.trace = true) : c.key ≠ answer.key := by
  intro hkey
  rcases of_pick?_eq_some hanswer with ⟨hentry, -, haccepts, -⟩
  rcases Store.mem_entries.1 hentry with ⟨hline, hget⟩
  rcases Store.mem_entries.1 hc with ⟨hcline, hcget⟩
  have hlines : r.request.line = line := by
    rw [← hline, ← hcline, hkey]
  have htraces : c.trace = answer.trace := by
    rw [hkey, hget] at hcget
    exact (Option.some.inj hcget).symm
  rw [htraces] at hcovers
  rw [h hlines _ hcovers] at haccepts
  exact absurd haccepts Bool.false_ne_true

/-- A request that spares a queue leaves it as it is. -/
theorem waiting_of_spares {r : PlacedRequest} (h : r.Spares line covers) (taken : List TraceKey) :
    store.waiting line covers (takenAfter (r.pick? store taken).toList taken) =
      store.waiting line covers taken := by
  cases hanswer : r.pick? store taken with
  | none => rfl
  | some answer =>
      have htaken : takenAfter [answer] taken = answer.key :: taken := rfl
      rw [Option.toList_some, htaken, Store.waiting_cons]
      apply List.filter_eq_self.2
      intro c hc
      rcases Store.mem_waiting.1 hc with ⟨hentry, hcovers, -⟩
      rw [decide_eq_true_eq]
      exact h.key_ne hanswer hentry hcovers

end PlacedRequest

/-! ## Serving at a queue -/

variable {asks : PlacedRequest → Bool}

/-- The requests that are marked draw from a queue, and all others spare it. -/
def QueueUp (line : UInt32) (covers : Trace → Bool) (asks : PlacedRequest → Bool)
    (rs : List PlacedRequest) : Prop :=
  ∀ r ∈ rs, if asks r then r.Draws line covers else r.Spares line covers

namespace QueueUp

theorem tail {r : PlacedRequest} {rs : List PlacedRequest}
    (h : QueueUp line covers asks (r :: rs)) : QueueUp line covers asks rs :=
  fun r' hr' => h r' (List.mem_cons_of_mem _ hr')

theorem draws {r : PlacedRequest} {rs : List PlacedRequest} (h : QueueUp line covers asks rs)
    (hr : r ∈ rs) (hasks : asks r = true) : r.Draws line covers := by
  have hr' := h r hr
  rwa [if_pos hasks] at hr'

theorem spares {r : PlacedRequest} {rs : List PlacedRequest} (h : QueueUp line covers asks rs)
    (hr : r ∈ rs) (hasks : asks r = false) : r.Spares line covers := by
  have hr' := h r hr
  rwa [hasks, if_neg Bool.false_ne_true] at hr'

/-- The requests that draw from a queue get its entries by position: the first one
gets the first entry, and so on as long as there are entries. -/
theorem serveEach_eq_mapIdx {rs : List PlacedRequest} (h : QueueUp line covers asks rs)
    (store : Store) (taken : List TraceKey) :
    (serveEach store taken rs).filter (asks ·.1) =
      (rs.filter asks).mapIdx fun i r =>
        (r, (store.waiting line covers taken)[i]?.map (·.recordedAt r.location)) := by
  induction rs generalizing taken with
  | nil => rfl
  | cons r rs ih =>
      have hrest := ih h.tail (takenAfter (r.pick? store taken).toList taken)
      rw [serveEach, List.filter_cons, List.filter_cons]
      cases hasks : asks r with
      | true =>
          have hdraws := h.draws List.mem_cons_self hasks
          rw [PlacedRequest.waiting_of_draws hdraws] at hrest
          rw [if_pos rfl, if_pos rfl, hrest, List.mapIdx_cons, hdraws.pick?_eq,
            List.head?_eq_getElem?]
          simp only [List.getElem?_tail]
      | false =>
          have hspares := h.spares List.mem_cons_self hasks
          rw [PlacedRequest.waiting_of_spares hspares] at hrest
          rw [if_neg Bool.false_ne_true, if_neg Bool.false_ne_true, hrest]

/-- The answers that come from a queue are its entries, in order, each at the place of
the request that drew it. -/
theorem filter_answersOf {rs : List PlacedRequest} (h : QueueUp line covers asks rs)
    (store : Store) (taken : List TraceKey) :
    (answersOf (serveEach store taken rs)).filter
        (fun answer => answer.key.line = line ∧ covers answer.trace) =
      List.zipWith (fun c r => c.recordedAt r.location) (store.waiting line covers taken)
        (rs.filter asks) := by
  induction rs generalizing taken with
  | nil => exact List.zipWith_nil_right.symm
  | cons r rs ih =>
      have hrest := ih h.tail (takenAfter (r.pick? store taken).toList taken)
      rw [serveEach, answersOf_cons, List.filter_append, hrest]
      cases hasks : asks r with
      | true =>
          have hdraws := h.draws List.mem_cons_self hasks
          rw [PlacedRequest.waiting_of_draws hdraws, List.filter_cons_of_pos hasks, hdraws.pick?_eq]
          cases hqueue : store.waiting line covers taken with
          | nil => rfl
          | cons c queue =>
              have hc : c ∈ store.waiting line covers taken := by
                rw [hqueue]
                exact List.mem_cons_self
              rcases Store.mem_waiting.1 hc with ⟨hentry, hcovers, -⟩
              have hkept : (c.recordedAt r.location).key.line = line ∧
                  covers (c.recordedAt r.location).trace = true :=
                ⟨(Store.mem_entries.1 hentry).1, hcovers⟩
              rw [List.zipWith_cons_cons, List.tail_cons, List.head?_cons, Option.map_some,
                Option.toList_some, List.filter_cons_of_pos]
              · rfl
              · exact decide_eq_true hkept
      | false =>
          have hspares := h.spares List.mem_cons_self hasks
          rw [PlacedRequest.waiting_of_spares hspares,
            List.filter_cons_of_neg (by rw [hasks]; exact Bool.false_ne_true)]
          have hnone : (r.pick? store taken).toList.filter
              (fun answer => answer.key.line = line ∧ covers answer.trace) = [] := by
            rw [List.filter_eq_nil_iff]
            intro answer hanswer hkept
            rw [Option.mem_toList] at hanswer
            rw [decide_eq_true_eq] at hkept
            rcases PlacedRequest.of_pick?_eq_some hanswer with ⟨hentry, -⟩
            have hget := (Store.mem_entries.1 hentry).2
            exact hspares.key_ne hanswer (Store.mem_entries.2 ⟨hkept.1, hget⟩) hkept.2 rfl
          rw [hnone, List.nil_append]

/-- Once all requests are served, the entries that are left are those behind the ones
that were drawn. -/
theorem waiting_serveEach {rs : List PlacedRequest} (h : QueueUp line covers asks rs)
    (store : Store) (taken : List TraceKey) :
    store.waiting line covers (takenAfter (answersOf (serveEach store taken rs)) taken) =
      (store.waiting line covers taken).drop (rs.filter asks).length := by
  induction rs generalizing taken with
  | nil => rfl
  | cons r rs ih =>
      have hrest := ih h.tail (takenAfter (r.pick? store taken).toList taken)
      rw [serveEach, answersOf_cons, takenAfter_append, hrest]
      cases hasks : asks r with
      | true =>
          rw [PlacedRequest.waiting_of_draws (h.draws List.mem_cons_self hasks),
            List.filter_cons_of_pos hasks, List.length_cons, List.drop_tail]
      | false =>
          rw [PlacedRequest.waiting_of_spares (h.spares List.mem_cons_self hasks),
            List.filter_cons_of_neg (by simp [hasks])]

end QueueUp

end TypeTrace

import Mathlib.Data.List.Find
import TypeTrace.Proofs.Requests

/-!
# Lines do not interfere

A request asks on one line and its answer is a trace of that line. So what is found
on a line is decided there: only the requests on the line, its traces and those of
them that are taken matter, whatever is asked and traced elsewhere.

Main results:

* `serveEach_congr`: serving reads no line but those of the requests;
* `filter_line_answersOf`: the answers on a line are those of the requests on it,
  served alone;
* `serve_append_of_disjoint`: requests on other lines are served as if they were alone;
* `align_line_local`: two stores that agree on a line give the same records there.
-/

namespace TypeTrace

variable {line : UInt32} {store store' : Store} {taken taken' : List TraceKey}

/-! ## Agreement on a line -/

/-- A line looks the same in two stores, of each of which something is taken: it has
the same traces, and the same of them are taken. -/
structure SameLine (line : UInt32) (store store' : Store) (taken taken' : List TraceKey) :
    Prop where
  traces_eq : store.traces line = store'.traces line
  taken_iff : ∀ key : TraceKey, key.line = line → (key ∈ taken ↔ key ∈ taken')

namespace SameLine

/-- A request is answered alike if its line looks the same. -/
theorem pick?_eq {r : PlacedRequest} (h : SameLine r.request.line store store' taken taken') :
    r.pick? store taken = r.pick? store' taken' := by
  have hentries : store.entries r.request.line = store'.entries r.request.line := by
    unfold Store.entries
    rw [h.traces_eq]
  unfold PlacedRequest.pick?
  rw [hentries]
  congr 1
  apply List.find?_congr
  intro c hc
  have htaken := h.taken_iff c.key (Store.mem_entries.1 hc).1
  simp only [htaken]

/-- A line still looks the same when the same is taken of both stores. -/
theorem takenAfter (h : SameLine line store store' taken taken') (answers : List Alignment) :
    SameLine line store store' (takenAfter answers taken) (takenAfter answers taken') where
  traces_eq := h.traces_eq
  taken_iff := by
    intro key hkey
    unfold TypeTrace.takenAfter
    rw [List.mem_append, List.mem_append, h.taken_iff key hkey]

/-- Answers from other lines take nothing of a line. -/
theorem of_elsewhere {answers : List Alignment} (h : ∀ answer ∈ answers, answer.key.line ≠ line) :
    SameLine line store store taken (TypeTrace.takenAfter answers taken) where
  traces_eq := rfl
  taken_iff := by
    intro key hkey
    have hfar : key ∉ (answers.map (·.key)).reverse := by
      rw [List.mem_reverse, List.mem_map]
      rintro ⟨answer, hanswer, rfl⟩
      exact h answer hanswer hkey
    unfold TypeTrace.takenAfter
    rw [List.mem_append]
    exact ⟨.inr, fun hmem => hmem.resolve_left hfar⟩

end SameLine

/-- Serving reads no line but those of the requests. -/
theorem serveEach_congr {rs : List PlacedRequest}
    (h : ∀ r ∈ rs, SameLine r.request.line store store' taken taken') :
    serveEach store taken rs = serveEach store' taken' rs := by
  induction rs generalizing taken taken' with
  | nil => rfl
  | cons r rs ih =>
      have hpick := (h r List.mem_cons_self).pick?_eq
      rw [serveEach, serveEach, hpick]
      congr 1
      apply ih
      intro r' hr'
      exact (h r' (List.mem_cons_of_mem _ hr')).takenAfter _

/-- What is taken of other lines does not matter. -/
theorem serveEach_takenAfter {rs : List PlacedRequest} {answers : List Alignment}
    (h : ∀ r ∈ rs, ∀ answer ∈ answers, answer.key.line ≠ r.request.line) :
    serveEach store (takenAfter answers taken) rs = serveEach store taken rs := by
  symm
  apply serveEach_congr
  intro r hr
  exact SameLine.of_elsewhere (h r hr)

/-! ## One line of a run -/

/-- An answer stands on the line of its request. -/
theorem PlacedRequest.line_of_pick?_eq_some {r : PlacedRequest} {answer : Alignment}
    (h : r.pick? store taken = some answer) : answer.key.line = r.request.line :=
  (Store.mem_entries.1 (of_pick?_eq_some h).1).1

theorem PlacedRequest.filter_line_pick? (line : UInt32) (r : PlacedRequest) :
    (r.pick? store taken).toList.filter (·.key.line = line) =
      if r.request.line = line then (r.pick? store taken).toList else [] := by
  cases hpick : r.pick? store taken with
  | none => rw [Option.toList_none, List.filter_nil, ite_self]
  | some answer =>
      rw [Option.toList_some, List.filter_singleton, line_of_pick?_eq_some hpick]
      exact Bool.cond_decide _ _ _

/-- The answers on a line are those of the requests on the line, served alone. -/
theorem filter_line_answersOf (line : UInt32) (store : Store) (taken : List TraceKey)
    (rs : List PlacedRequest) :
    (answersOf (serveEach store taken rs)).filter (·.key.line = line) =
      answersOf (serveEach store taken (rs.filter (·.request.line = line))) := by
  induction rs generalizing taken with
  | nil => rfl
  | cons r rs ih =>
      rw [serveEach, answersOf_cons, List.filter_append, ih, PlacedRequest.filter_line_pick?,
        List.filter_cons]
      by_cases hr : r.request.line = line
      · rw [if_pos hr, if_pos (decide_eq_true hr), serveEach, answersOf_cons]
      · have hother : ¬decide (r.request.line = line) = true := by
          rw [decide_eq_true_eq]
          exact hr
        rw [if_neg hr, if_neg hother, List.nil_append, serveEach_takenAfter]
        intro r' hr' answer hanswer
        have hline : r'.request.line = line := of_decide_eq_true (List.mem_filter.1 hr').2
        rw [PlacedRequest.line_of_pick?_eq_some (Option.mem_toList.1 hanswer), hline]
        exact hr

/-- Every answer stands on the line of some request. -/
theorem exists_request_of_mem_answersOf {rs : List PlacedRequest} {answer : Alignment}
    (h : answer ∈ answersOf (serveEach store taken rs)) :
    ∃ r ∈ rs, r.request.line = answer.key.line := by
  by_contra hnone
  push Not at hnone
  have hrequests : rs.filter (·.request.line = answer.key.line) = [] := by
    rw [List.filter_eq_nil_iff]
    intro r hr
    rw [decide_eq_true_eq]
    exact hnone r hr
  have hanswers := filter_line_answersOf answer.key.line store taken rs
  rw [hrequests] at hanswers
  have hmem : answer ∈ (answersOf (serveEach store taken rs)).filter
      (·.key.line = answer.key.line) := List.mem_filter.2 ⟨h, decide_eq_true rfl⟩
  rw [hanswers] at hmem
  exact absurd hmem List.not_mem_nil

/-- Requests that ask on other lines than the ones before them are served as if they were
alone. -/
theorem serve_append_of_disjoint (store : Store) {rs rs' : List PlacedRequest}
    (h : ∀ r ∈ rs, ∀ r' ∈ rs', r.request.line ≠ r'.request.line) :
    serve store (rs ++ rs') = serve store rs ++ serve store rs' := by
  unfold serve
  rw [serveEach_append, answersOf_append, serveEach_takenAfter]
  intro r' hr' answer hanswer
  rcases exists_request_of_mem_answersOf hanswer with ⟨r, hr, hline⟩
  rw [← hline]
  exact h r hr r' hr'

/-! ## One line of an alignment -/

/-- Two stores of one text that have the same traces on a line, whatever they have on
other lines, give the same records for the traces of that line, in the same order. -/
theorem Aligner.align_line_local (version : PythonVersion) (n : Node)
    (hlines : store.lines = store'.lines) (htraces : store.traces line = store'.traces line) :
    ∃ records records',
      (Aligner.mk store version).align n = .ok records ∧
        (Aligner.mk store' version).align n = .ok records' ∧
        records.filter (·.key.line = line) = records'.filter (·.key.line = line) := by
  refine ⟨_, _, align_eq_serve _ n, align_eq_serve _ n, ?_⟩
  have hrequested : (Aligner.mk store version).requested n =
      (Aligner.mk store' version).requested n := by
    apply requested_congr
    · rfl
    · exact hlines
  unfold serve
  rw [filter_line_answersOf, filter_line_answersOf, hrequested]
  congr 1
  apply serveEach_congr
  intro r hr
  have hline : r.request.line = line := of_decide_eq_true (List.mem_filter.1 hr).2
  rw [hline]
  exact ⟨htraces, fun _ _ => Iff.rfl⟩

/-- The assignment `x = f(y)` whose value ends on the second line, and two stores that
have nothing in common on the first line. -/
def changedElsewhere : Store × Store × Node :=
  (.ofTraces "x = f(\n  y)" [(1, ⟨.loadName, .str "f", []⟩), (2, ⟨.loadName, .str "y", []⟩),
      (2, ⟨.storeName, .str "x", []⟩)],
    .ofTraces "x = f(\n  y)" [(2, ⟨.loadName, .str "y", []⟩), (1, ⟨.callFunction, .str "f", []⟩),
      (1, ⟨.storeName, .str "x", []⟩), (2, ⟨.storeName, .str "x", []⟩)],
    .ofBody [.mk (.assign [.mk (.name "x" .store) ⟨1, 0⟩]
      (.mk (.call (.mk (.name "f" .load) ⟨1, 4⟩) [.mk (.name "y" .load) ⟨2, 2⟩] []) ⟨1, 4⟩))
      ⟨1, 0⟩])

/-- On the second line both stores give the record of the target, which asks there for a
version with the skew, and the record of the argument. -/
theorem align_changedElsewhere :
    let (store, store', n) := changedElsewhere
    store.lines = store'.lines ∧ store.traces 2 = store'.traces 2 ∧
      ∃ records records',
        (Aligner.mk store ⟨3, 6⟩).align n = .ok records ∧
          (Aligner.mk store' ⟨3, 6⟩).align n = .ok records' ∧
          records.filter (·.key.line = 2) = records'.filter (·.key.line = 2) ∧
          records'.filter (·.key.line = 2) =
            [⟨⟨⟨2, 1⟩, ⟨.storeName, .str "x", []⟩⟩, ⟨1, 0⟩⟩,
              ⟨⟨⟨2, 0⟩, ⟨.loadName, .str "y", []⟩⟩, ⟨2, 2⟩⟩] := by
  have hlines : changedElsewhere.1.lines = changedElsewhere.2.1.lines := rfl
  have htraces : changedElsewhere.1.traces 2 = changedElsewhere.2.1.traces 2 := by
    decide +kernel
  obtain ⟨records, records', halign, halign', hsame⟩ :=
    Aligner.align_line_local ⟨3, 6⟩ changedElsewhere.2.2 hlines htraces
  refine ⟨hlines, htraces, records, records', halign, halign', hsame, ?_⟩
  rw [Aligner.eq_serve_of_align halign']
  decide +kernel

end TypeTrace

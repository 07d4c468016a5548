import Mathlib.Data.List.Find
import TypeTrace.Proofs.Accounting
import TypeTrace.Proofs.Requests

/-!
# Stores with fewer traces

A store that lacks some of the traces of another one is compared with it. A trace that
is never an answer can be left out, and so can one that has no kept trace behind it on
its line, since a request that was given such a trace finds nothing else. In both cases
the other answers stay as they are, apart from the keys under which the store with
fewer traces has them.

Main results:

* `Thinning.pick?_eq`: what one request is answered from fewer traces;
* `Thinning.align_eq`: the records of a tree from fewer traces;
* `align_push`: one more trace adds at most one record.
-/

namespace TypeTrace

/-! ## Claims under other keys -/

/-- The same trace under another key. -/
def Claim.rekey (f : TraceKey → TraceKey) (c : Claim) : Claim := { c with key := f c.key }

/-- The same trace at the same place, under another key. -/
def Alignment.rekey (f : TraceKey → TraceKey) (a : Alignment) : Alignment :=
  { a with key := f a.key }

/-! ## Thinnings -/

/-- The store `thin` has the text of another store and those of its traces whose keys are
kept, in the same order. A kept trace has the key `f k` there if it had the key `k`. -/
structure Thinning (store thin : Store) (kept : TraceKey → Bool) (f : TraceKey → TraceKey) :
    Prop where
  lines_eq : store.lines = thin.lines
  entries_eq : ∀ line,
    thin.entries line = ((store.entries line).filter (kept ·.key)).map (·.rekey f)
  injOn : ∀ {k k'}, kept k = true → kept k' = true → f k = f k' → k = k'

/-- What is taken of a thinned store when `taken` is taken of the other one. -/
def keptKeys (kept : TraceKey → Bool) (f : TraceKey → TraceKey) (taken : List TraceKey) :
    List TraceKey :=
  (taken.filter kept).map f

/-- The kept ones of some answers, as a thinned store has them. -/
def keptAnswers (kept : TraceKey → Bool) (f : TraceKey → TraceKey) (answers : List Alignment) :
    List Alignment :=
  (answers.filter (kept ·.key)).map (·.rekey f)

/-- No kept trace comes behind a key on its line. -/
def Store.Closes (store : Store) (kept : TraceKey → Bool) (key : TraceKey) : Prop :=
  ∀ c ∈ store.entries key.line, key.index < c.key.index → kept c.key = false

variable {store thin : Store} {kept : TraceKey → Bool} {f : TraceKey → TraceKey}

theorem keptAnswers_append (first second : List Alignment) :
    keptAnswers kept f (first ++ second) =
      keptAnswers kept f first ++ keptAnswers kept f second := by
  unfold keptAnswers
  rw [List.filter_append, List.map_append]

/-- Taking answers of both stores keeps what is taken of them in step. -/
theorem takenAfter_keptAnswers (answers : List Alignment) (taken : List TraceKey) :
    takenAfter (keptAnswers kept f answers) (keptKeys kept f taken) =
      keptKeys kept f (takenAfter answers taken) := by
  unfold takenAfter keptAnswers keptKeys
  rw [List.filter_append, List.map_append, List.filter_reverse, List.map_reverse, List.filter_map,
    List.map_map, List.map_map]
  rfl

/-! ## One request -/

/-- An answer is the first trace of its line that is not taken and fits. -/
theorem PlacedRequest.index_le_of_pick? {taken : List TraceKey} {r : PlacedRequest}
    {answer : Alignment} (h : r.pick? store taken = some answer) {c : Claim}
    (hc : c ∈ store.entries r.request.line) (htaken : c.key ∉ taken)
    (haccepts : r.request.accepts c.trace = true) : answer.key.index ≤ c.key.index := by
  rcases Option.map_eq_some_iff.1 h with ⟨first, hfirst, rfl⟩
  rcases List.find?_eq_some_iff_append.1 hfirst with ⟨-, before, after, hentries, hbefore⟩
  have hsorted := pairwise_entriesFrom r.request.line 0 (store.traces r.request.line)
  rw [show entriesFrom r.request.line 0 (store.traces r.request.line) = _ from hentries,
    List.pairwise_append, List.pairwise_cons] at hsorted
  rw [hentries, List.mem_append, List.mem_cons] at hc
  rcases hc with hc | rfl | hc
  · have hskipped := hbefore c hc
    rw [decide_eq_true ⟨htaken, haccepts⟩] at hskipped
    exact absurd hskipped Bool.false_ne_true
  · exact le_rfl
  · exact (hsorted.2.1.1 c hc).le

/-- When an answer that is not kept closes its line, no kept entry fits the request. -/
theorem PlacedRequest.kept_eq_false_of_closes {taken : List TraceKey} {r : PlacedRequest}
    {answer : Alignment} (h : r.pick? store taken = some answer)
    (hkept : kept answer.key = false) (hcloses : store.Closes kept answer.key) {c : Claim}
    (hc : c ∈ store.entries r.request.line) (htaken : c.key ∉ taken)
    (haccepts : r.request.accepts c.trace = true) : kept c.key = false := by
  have hline : answer.key.line = r.request.line :=
    (Store.mem_entries.1 (of_pick?_eq_some h).1).1
  rcases (index_le_of_pick? h hc htaken haccepts).lt_or_eq with hlt | heq
  · exact hcloses c (hline ▸ hc) hlt
  · have hkey : c.key = answer.key :=
      congrArg₂ TraceKey.mk ((Store.mem_entries.1 hc).1.trans hline.symm) heq.symm
    rw [hkey, hkept]

/-- The first match among the kept items is the first match of all, if that one is kept.
If it is not, there has to be no kept match at all. -/
theorem find?_filter_eq {α : Type} {p q : α → Bool} {l : List α}
    (h : ∀ a, l.find? q = some a → p a = false → ∀ b ∈ l, q b = true → p b = false) :
    (l.filter p).find? q = (l.find? q).filter p := by
  cases hfind : l.find? q with
  | none =>
      rw [List.find?_eq_none] at hfind
      rw [Option.filter_none, List.find?_eq_none]
      exact fun b hb => hfind b (List.mem_filter.1 hb).1
  | some a =>
      cases hkept : p a with
      | false =>
          rw [Option.filter_some, hkept, if_neg Bool.false_ne_true, List.find?_eq_none]
          intro b hb hmatch
          rcases List.mem_filter.1 hb with ⟨hmem, hp⟩
          rw [h a hfind hkept b hmem hmatch] at hp
          exact absurd hp Bool.false_ne_true
      | true =>
          rcases List.find?_eq_some_iff_append.1 hfind with ⟨hmatch, before, after, rfl, hbefore⟩
          have hnone : (before.filter p).find? q = none := by
            rw [List.find?_eq_none]
            intro b hb hq
            have hskipped := hbefore b (List.mem_filter.1 hb).1
            rw [hq] at hskipped
            exact absurd hskipped Bool.false_ne_true
          rw [Option.filter_some, hkept, if_pos rfl, List.filter_append, List.find?_append, hnone,
            Option.none_or, List.filter_cons_of_pos hkept, List.find?_cons_of_pos hmatch]

namespace Thinning

variable {taken : List TraceKey}

theorem mem_keptKeys (h : Thinning store thin kept f) (taken : List TraceKey) {key : TraceKey}
    (hkept : kept key = true) : f key ∈ keptKeys kept f taken ↔ key ∈ taken := by
  unfold keptKeys
  rw [List.mem_map]
  constructor
  · rintro ⟨k, hk, hsame⟩
    rcases List.mem_filter.1 hk with ⟨hmem, hk⟩
    rw [← h.injOn hk hkept hsame]
    exact hmem
  · intro hmem
    exact ⟨key, List.mem_filter.2 ⟨hmem, hkept⟩, rfl⟩

/-- A request is answered alike from fewer traces, if its answer is kept. If it is not and
closes its line, there is no answer. -/
theorem pick?_eq (h : Thinning store thin kept f) (r : PlacedRequest)
    (hspare : ∀ answer, r.pick? store taken = some answer →
      kept answer.key = true ∨ store.Closes kept answer.key) :
    r.pick? thin (keptKeys kept f taken) =
      ((r.pick? store taken).filter (kept ·.key)).map (·.rekey f) := by
  have hopen : ∀ c ∈ (store.entries r.request.line).filter (kept ·.key),
      ((fun c => decide (c.key ∉ keptKeys kept f taken ∧ r.request.accepts c.trace = true)) ∘
          (·.rekey f)) c =
        decide (c.key ∉ taken ∧ r.request.accepts c.trace = true) := by
    intro c hc
    have htaken := h.mem_keptKeys taken (List.mem_filter.1 hc).2
    rw [Function.comp_apply, decide_eq_decide]
    exact and_congr_left fun _ => not_congr htaken
  have hnone : ∀ c, (store.entries r.request.line).find?
        (fun c => c.key ∉ taken ∧ r.request.accepts c.trace) = some c →
      kept c.key = false → ∀ d ∈ store.entries r.request.line,
        decide (d.key ∉ taken ∧ r.request.accepts d.trace = true) = true →
          kept d.key = false := by
    intro c hc hkept d hd hfits
    rw [decide_eq_true_eq] at hfits
    have hanswer : r.pick? store taken = some (c.recordedAt r.location) := by
      unfold PlacedRequest.pick?
      rw [hc, Option.map_some]
    have hcloses := (hspare _ hanswer).resolve_left (ne_true_of_eq_false hkept)
    exact PlacedRequest.kept_eq_false_of_closes hanswer hkept hcloses hd hfits.1 hfits.2
  unfold PlacedRequest.pick?
  rw [h.entries_eq, List.find?_map, List.find?_congr hopen, find?_filter_eq hnone]
  cases (store.entries r.request.line).find? _ with
  | none => rfl
  | some c =>
      have hkey : (c.recordedAt r.location).key = c.key := rfl
      rw [Option.map_some, Option.filter_some, Option.filter_some, hkey]
      cases kept c.key <;> rfl

/-- Fewer traces give the kept ones of the answers, if each answer that is not kept closes
its line. -/
theorem answersOf_eq (h : Thinning store thin kept f) (rs : List PlacedRequest)
    (hspare : ∀ answer ∈ answersOf (serveEach store taken rs),
      kept answer.key = true ∨ store.Closes kept answer.key) :
    answersOf (serveEach thin (keptKeys kept f taken) rs) =
      keptAnswers kept f (answersOf (serveEach store taken rs)) := by
  induction rs generalizing taken with
  | nil => rfl
  | cons r rs ih =>
      rw [serveEach, answersOf_cons] at hspare
      have hpick := h.pick?_eq r fun answer hanswer =>
        hspare answer (List.mem_append_left _ (Option.mem_toList.2 hanswer))
      have hfirst : (r.pick? thin (keptKeys kept f taken)).toList =
          keptAnswers kept f (r.pick? store taken).toList := by
        rw [hpick, Option.toList_map, Option.toList_filter]
        rfl
      have hrest := ih fun answer hanswer => hspare answer (List.mem_append_right _ hanswer)
      rw [serveEach, serveEach, answersOf_cons, answersOf_cons, keptAnswers_append, hfirst,
        takenAfter_keptAnswers, hrest]

/-- The records of a tree from fewer traces are the kept ones of its records, if each
record that is not kept closes its line. -/
theorem align_eq (h : Thinning store thin kept f) {version : PythonVersion} {n : Node}
    {records : List Alignment} (halign : (Aligner.mk store version).align n = .ok records)
    (hspare : ∀ r ∈ records, kept r.key = true ∨ store.Closes kept r.key) :
    (Aligner.mk thin version).align n = .ok (keptAnswers kept f records) := by
  have hrequested : (Aligner.mk thin version).requested n =
      (Aligner.mk store version).requested n := by
    apply Aligner.requested_congr
    · rfl
    · exact h.lines_eq.symm
  rw [Aligner.eq_serve_of_align halign] at hspare ⊢
  rw [Aligner.align_eq_serve, hrequested]
  exact congrArg _ (h.answersOf_eq _ hspare)

end Thinning

/-! ## One more trace -/

namespace Store

/-- The key that the next trace of a line will get. -/
def nextKey (s : Store) (line : UInt32) : TraceKey := ⟨line, (s.traces line).length⟩

theorem nextKey_push (s : Store) (line line' : UInt32) (t : Trace) :
    (s.push line t).nextKey line' =
      if line' = line then ⟨line, (s.nextKey line).index + 1⟩ else s.nextKey line' := by
  unfold nextKey
  rw [traces_push]
  by_cases hline : line' = line
  · rw [if_pos hline, if_pos hline, List.length_append, hline]
    rfl
  · rw [if_neg hline, if_neg hline]

/-- A new trace becomes the last entry of its line. -/
theorem entries_push (s : Store) (line line' : UInt32) (t : Trace) :
    (s.push line t).entries line' =
      if line' = line then s.entries line ++ [⟨s.nextKey line, t⟩] else s.entries line' := by
  unfold entries
  rw [traces_push]
  by_cases hline : line' = line
  · subst hline
    unfold entriesFrom nextKey
    rw [if_pos rfl, if_pos rfl, List.zipIdx_append, List.map_append, Nat.zero_add]
    rfl
  · rw [if_neg hline, if_neg hline]

/-- The key that the next trace will get is behind all keys of the line. -/
theorem index_lt_nextKey {s : Store} {line : UInt32} {c : Claim} (h : c ∈ s.entries line) :
    c.key.index < (s.nextKey line).index := by
  rcases mem_entries.1 h with ⟨rfl, hget⟩
  exact (get?_eq_some_iff.1 hget).1

end Store

/-- A new trace closes its line. -/
theorem Store.closes_nextKey (s : Store) (line : UInt32) (t : Trace) (kept : TraceKey → Bool) :
    (s.push line t).Closes kept (s.nextKey line) := by
  intro c hc hlt
  have hline : (s.nextKey line).line = line := rfl
  rw [hline, entries_push, if_pos rfl, List.mem_append, List.mem_singleton] at hc
  rcases hc with hc | rfl
  · exact absurd hlt (index_lt_nextKey hc).asymm
  · exact absurd hlt (lt_irrefl _)

/-- A store is thinned by leaving out the trace that was pushed last. -/
theorem thinning_push (s : Store) (line : UInt32) (t : Trace) :
    Thinning (s.push line t) s (· ≠ s.nextKey line) id where
  lines_eq := rfl
  injOn := fun _ _ hsame => hsame
  entries_eq := by
    intro line'
    have hold : ∀ c ∈ s.entries line', decide (c.key ≠ s.nextKey line) = true := by
      intro c hc
      rw [decide_eq_true_eq]
      intro hkey
      have hline : line' = line := by
        rw [← (Store.mem_entries.1 hc).1, hkey]
        rfl
      have hlt := Store.index_lt_nextKey hc
      rw [hkey, hline] at hlt
      exact lt_irrefl _ hlt
    have hkept : (s.entries line').filter (fun c => c.key ≠ s.nextKey line) = s.entries line' :=
      List.filter_eq_self.2 hold
    rw [Store.entries_push]
    by_cases hline : line' = line
    · subst hline
      have hnew : List.filter (fun c : Claim => decide (c.key ≠ s.nextKey line'))
          [⟨s.nextKey line', t⟩] = [] := by
        simp
      rw [if_pos rfl, List.filter_append, hkept, hnew, List.append_nil]
      exact (List.map_id _).symm
    · rw [if_neg hline, hkept]
      exact (List.map_id _).symm

/-- At most one of several answers with different keys has a certain key, and without it
the others are left. -/
theorem eq_filter_or_eq_insert {answers : List Alignment} (hnodup : (answers.map (·.key)).Nodup)
    (key : TraceKey) :
    answers = answers.filter (·.key ≠ key) ∨
      ∃ before answer after, answer.key = key ∧ answers = before ++ answer :: after ∧
        answers.filter (·.key ≠ key) = before ++ after := by
  by_cases hkey : ∃ answer ∈ answers, answer.key = key
  · rcases hkey with ⟨answer, hanswer, rfl⟩
    rcases List.append_of_mem hanswer with ⟨before, after, rfl⟩
    refine .inr ⟨before, answer, after, rfl, rfl, ?_⟩
    rw [List.map_append, List.map_cons, List.nodup_append, List.nodup_cons] at hnodup
    rcases hnodup with ⟨-, ⟨hafter, -⟩, hbefore⟩
    have hkeep₁ : before.filter (·.key ≠ answer.key) = before := by
      rw [List.filter_eq_self]
      intro b hb
      exact decide_eq_true (hbefore _ (List.mem_map.2 ⟨b, hb, rfl⟩) _ List.mem_cons_self)
    have hkeep₂ : after.filter (·.key ≠ answer.key) = after := by
      rw [List.filter_eq_self]
      intro b hb
      refine decide_eq_true fun hsame => hafter ?_
      exact List.mem_map.2 ⟨b, hb, hsame⟩
    rw [List.filter_append, List.filter_cons_of_neg (by simp), hkeep₁, hkeep₂]
  · refine .inl (List.filter_eq_self.2 fun answer hanswer => ?_).symm
    exact decide_eq_true fun hsame => hkey ⟨answer, hanswer, hsame⟩

/-- One more trace, pushed on any line, changes the records of a tree by at most one more
record. It is a record of the new trace, and without it the records are the old ones, in
the same order. -/
theorem Aligner.align_push (a : Aligner) (n : Node) (line : UInt32) (t : Trace) :
    let pushed : Aligner := { a with store := a.store.push line t }
    let key := a.store.nextKey line
    pushed.store.get? key = some t ∧
      ∃ records records',
        a.align n = .ok records ∧ pushed.align n = .ok records' ∧
          (records' = records ∨
            ∃ before after location,
              records = before ++ after ∧
                records' = before ++ { key, trace := t, location } :: after) := by
  intro pushed key
  have hget : pushed.store.get? key = some t := by
    have hentry : (⟨key, t⟩ : Claim) ∈ pushed.store.entries line := by
      rw [Store.entries_push, if_pos rfl]
      exact List.mem_append_right _ (List.mem_singleton_self _)
    exact (Store.mem_entries.1 hentry).2
  have halign := pushed.align_eq_serve n
  -- a record of another key is kept, and the new trace closes its line
  have hspare : ∀ r ∈ serve pushed.store (pushed.requested n),
      decide (r.key ≠ key) = true ∨ pushed.store.Closes (· ≠ key) r.key := by
    intro r _
    by_cases hkey : r.key = key
    · rw [hkey]
      exact .inr (a.store.closes_nextKey line t _)
    · exact .inl (decide_eq_true hkey)
  have hold := (thinning_push a.store line t).align_eq halign hspare
  have hkept : keptAnswers (· ≠ key) id (serve pushed.store (pushed.requested n)) =
      (serve pushed.store (pushed.requested n)).filter (·.key ≠ key) := List.map_id _
  refine ⟨hget, _, _, hold, halign, ?_⟩
  rw [hkept]
  rcases eq_filter_or_eq_insert (nodup_serve pushed.store (pushed.requested n)) key with
    hsame | ⟨before, new, after, hkey, hrecords, hrest⟩
  · exact .inl hsame
  · refine .inr ⟨before, after, new.location, hrest, ?_⟩
    have htrace : new.trace = t := by
      have hnew : new ∈ serve pushed.store (pushed.requested n) := by
        rw [hrecords]
        exact List.mem_append_right _ List.mem_cons_self
      have hgenuine := get?_of_mem_serve hnew
      rw [hkey, hget] at hgenuine
      exact (Option.some.inj hgenuine).symm
    rw [hrecords, ← hkey, ← htrace]

end TypeTrace

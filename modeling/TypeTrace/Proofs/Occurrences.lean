import Mathlib.Data.Nat.Count
import TypeTrace.Proofs.Thinning

/-!
# Traces that nobody claims

A store is made from a list of traces, each of which gets a key when it is pushed. When
some of them are left out of the list, those behind them on their lines move up. The
records of a tree do not change by that, apart from the keys, as long as no record is of
a trace that was left out.

Main results:

* `entries_ofTraces`: the entries of a store made from a list;
* `occurrences_left`: how keys move up;
* `align_left`: the records of a tree without some traces that none of them is of.
-/

namespace TypeTrace

/-! ## Traces with the keys that they get -/

/-- A trace with its line, as it stands in a list of traces. -/
def Claim.placed (c : Claim) : UInt32 × Trace := (c.key.line, c.trace)

namespace Store

/-- The traces of a list with the keys that they get when they are pushed one after the
other. -/
def occurrences (s : Store) : List (UInt32 × Trace) → List Claim
  | [] => []
  | p :: ts => ⟨s.nextKey p.1, p.2⟩ :: occurrences (s.push p.1 p.2) ts

/-- The occurrences of a list are its traces, in order. -/
@[simp]
theorem map_placed_occurrences (s : Store) (ts : List (UInt32 × Trace)) :
    (s.occurrences ts).map Claim.placed = ts := by
  induction ts generalizing s with
  | nil => rfl
  | cons p ts ih =>
      rw [occurrences, List.map_cons, ih]
      rfl

/-- Traces get keys behind those that their lines have already. -/
theorem nextKey_le_of_mem_occurrences {s : Store} {ts : List (UInt32 × Trace)} {c : Claim}
    (h : c ∈ s.occurrences ts) : (s.nextKey c.key.line).index ≤ c.key.index := by
  induction ts generalizing s with
  | nil => exact absurd h List.not_mem_nil
  | cons p ts ih =>
      rcases List.mem_cons.1 h with rfl | h
      · exact le_rfl
      · have hrest := ih h
        rw [nextKey_push] at hrest
        by_cases hline : c.key.line = p.1
        · rw [if_pos hline] at hrest
          rw [hline]
          exact (Nat.le_succ _).trans hrest
        · rwa [if_neg hline] at hrest

/-- Each trace of a list gets a key of its own. -/
theorem nodup_occurrences (s : Store) (ts : List (UInt32 × Trace)) :
    ((s.occurrences ts).map (·.key)).Nodup := by
  induction ts generalizing s with
  | nil => exact List.nodup_nil
  | cons p ts ih =>
      rw [occurrences, List.map_cons, List.nodup_cons]
      refine ⟨?_, ih _⟩
      intro hmem
      rcases List.mem_map.1 hmem with ⟨c, hc, hkey⟩
      have hline : c.key.line = p.1 := congrArg TraceKey.line hkey
      have hle := nextKey_le_of_mem_occurrences hc
      rw [hline, nextKey_push, if_pos rfl, hkey] at hle
      exact absurd hle (Nat.not_succ_le_self _)

/-- Pushing traces adds their occurrences to the entries of each line. -/
theorem entries_foldl_push (s : Store) (ts : List (UInt32 × Trace)) (line : UInt32) :
    (ts.foldl (fun s t => s.push t.1 t.2) s).entries line =
      s.entries line ++ (s.occurrences ts).filter (·.key.line = line) := by
  induction ts generalizing s with
  | nil => exact (List.append_nil _).symm
  | cons p ts ih =>
      have hkey : (s.nextKey p.1).line = p.1 := rfl
      rw [List.foldl_cons, ih, entries_push, occurrences]
      by_cases hline : line = p.1
      · subst hline
        rw [if_pos rfl, List.filter_cons, if_pos (decide_eq_true hkey), List.append_assoc]
        rfl
      · have hother : ¬decide ((s.nextKey p.1).line = line) = true := by
          rw [decide_eq_true_eq, hkey]
          exact Ne.symm hline
        rw [if_neg hline, List.filter_cons, if_neg hother]

/-- The entries of a line are the occurrences on it. -/
theorem entries_ofTraces (text : String) (ts : List (UInt32 × Trace)) (line : UInt32) :
    (ofTraces text ts).entries line =
      ((ofText text).occurrences ts).filter (·.key.line = line) := by
  unfold ofTraces
  rw [entries_foldl_push]
  rfl

/-- Each occurrence is in the store, under its key. -/
theorem get?_of_mem_occurrences {text : String} {ts : List (UInt32 × Trace)} {c : Claim}
    (h : c ∈ (ofText text).occurrences ts) : (ofTraces text ts).get? c.key = some c.trace := by
  have hentry : c ∈ (ofTraces text ts).entries c.key.line := by
    rw [entries_ofTraces]
    exact List.mem_filter.2 ⟨h, decide_eq_true rfl⟩
  exact (mem_entries.1 hentry).2

theorem lines_ofTraces (text : String) (ts : List (UInt32 × Trace)) :
    (ofTraces text ts).lines = (ofText text).lines := by
  unfold ofTraces
  generalize ofText text = s
  induction ts generalizing s with
  | nil => rfl
  | cons p ts ih => exact ih (s.push p.1 p.2)

end Store

/-! ## Moving up -/

/-- Where a key moves when only the kept traces are left: as many kept ones come before
it as before. -/
def TraceKey.movedUp (kept : TraceKey → Bool) (key : TraceKey) : TraceKey :=
  { key with index := Nat.count (fun i => kept ⟨key.line, i⟩ = true) key.index }

theorem TraceKey.movedUp_succ (kept : TraceKey → Bool) (key : TraceKey) :
    TraceKey.movedUp kept ⟨key.line, key.index + 1⟩ =
      ⟨key.line, (key.movedUp kept).index + if kept key = true then 1 else 0⟩ :=
  congrArg (TraceKey.mk key.line) (Nat.count_succ _ _)

/-- Two kept keys do not move to one place. -/
theorem TraceKey.movedUp_inj {kept : TraceKey → Bool} {k k' : TraceKey} (hk : kept k = true)
    (hk' : kept k' = true) (h : k.movedUp kept = k'.movedUp kept) : k = k' := by
  rcases k with ⟨line, i⟩
  rcases k' with ⟨line', i'⟩
  rcases TraceKey.mk.inj h with ⟨hline, hcount⟩
  cases hline
  exact congrArg (TraceKey.mk line) (Nat.count_injective hk hk' hcount)

/-- The traces that are left get the keys to which their old keys move up, if that is so
for the keys that come next. -/
theorem Store.occurrences_left {kept : TraceKey → Bool} {s s' : Store}
    (h : ∀ line, s'.nextKey line = (s.nextKey line).movedUp kept)
    (ts : List (UInt32 × Trace)) :
    s'.occurrences (((s.occurrences ts).filter (kept ·.key)).map Claim.placed) =
      ((s.occurrences ts).filter (kept ·.key)).map (·.rekey (TraceKey.movedUp kept)) := by
  induction ts generalizing s s' with
  | nil => rfl
  | cons p ts ih =>
      have hsucc := TraceKey.movedUp_succ kept (s.nextKey p.1)
      rw [occurrences]
      cases hkept : kept (s.nextKey p.1) with
      | true =>
          have hnext : ∀ line, (s'.push p.1 p.2).nextKey line =
              ((s.push p.1 p.2).nextKey line).movedUp kept := by
            intro line
            rw [nextKey_push, nextKey_push]
            by_cases hline : line = p.1
            · rw [hkept, if_pos rfl] at hsucc
              rw [if_pos hline, if_pos hline, h p.1]
              exact hsucc.symm
            · rw [if_neg hline, if_neg hline, h line]
          rw [List.filter_cons, if_pos hkept, List.map_cons, List.map_cons, occurrences]
          exact congrArg₂ List.cons (congrArg (Claim.mk · p.2) (h p.1)) (ih hnext)
      | false =>
          have hnext : ∀ line, s'.nextKey line = ((s.push p.1 p.2).nextKey line).movedUp kept := by
            intro line
            rw [nextKey_push]
            by_cases hline : line = p.1
            · rw [hkept, if_neg Bool.false_ne_true] at hsucc
              rw [if_pos hline, hline, h p.1]
              exact hsucc.symm
            · rw [if_neg hline, h line]
          rw [List.filter_cons, if_neg (ne_true_of_eq_false hkept)]
          exact ih hnext

/-- The store of the traces that are left is a thinning of the store of all. -/
theorem thinning_ofTraces (text : String) (ts : List (UInt32 × Trace)) (kept : TraceKey → Bool) :
    let left := ((Store.ofText text).occurrences ts).filter (kept ·.key)
    Thinning (.ofTraces text ts) (.ofTraces text (left.map Claim.placed)) kept
      (TraceKey.movedUp kept) where
  lines_eq := (Store.lines_ofTraces text _).trans (Store.lines_ofTraces text _).symm
  injOn := TraceKey.movedUp_inj
  entries_eq := by
    intro line
    have hstart : ∀ line, (Store.ofText text).nextKey line =
        ((Store.ofText text).nextKey line).movedUp kept := fun _ => rfl
    rw [Store.entries_ofTraces, Store.entries_ofTraces, Store.occurrences_left hstart,
      List.filter_map, List.filter_filter, List.filter_filter]
    congr 1
    apply List.filter_congr
    intro c _
    exact Bool.and_comm _ _

/-! ## Aligning without some traces -/

/-- Traces that no record is of can be left out of a list, wherever they stand in it. The
records of a tree are then of the same traces at the same places, in the same order. Only
the indices of their keys change, as do the keys that the traces get: each record still
has the key of its trace. A set of traces of the list is given by the keys of those that
are kept, since each of them has a key of its own, under which the store holds it. -/
theorem Aligner.align_left (version : PythonVersion) (n : Node) (text : String)
    (ts : List (UInt32 × Trace)) (kept : TraceKey → Bool) :
    let all := (Store.ofText text).occurrences ts
    let left := all.filter (kept ·.key)
    all.map Claim.placed = ts ∧ (all.map (·.key)).Nodup ∧
      (∀ c ∈ all, (Store.ofTraces text ts).get? c.key = some c.trace) ∧
      ∃ records,
        (Aligner.mk (.ofTraces text ts) version).align n = .ok records ∧
          ((∀ r ∈ records, kept r.key = true) →
            ∃ records',
              (Aligner.mk (.ofTraces text (left.map Claim.placed)) version).align n =
                  .ok records' ∧
                records'.map (fun r => (r.location, r.trace)) =
                  records.map (fun r => (r.location, r.trace)) ∧
                records' = records.map (·.rekey (TraceKey.movedUp kept)) ∧
                (Store.ofText text).occurrences (left.map Claim.placed) =
                  left.map (·.rekey (TraceKey.movedUp kept))) := by
  intro all left
  have halign := (Aligner.mk (.ofTraces text ts) version).align_eq_serve n
  refine ⟨Store.map_placed_occurrences _ ts, Store.nodup_occurrences _ ts,
    fun c hc => Store.get?_of_mem_occurrences hc, _, halign, fun hkept => ?_⟩
  have hleft := (thinning_ofTraces text ts kept).align_eq halign fun r hr => .inl (hkept r hr)
  unfold keptAnswers at hleft
  rw [List.filter_eq_self.2 hkept] at hleft
  refine ⟨_, hleft, ?_, rfl, Store.occurrences_left (fun _ => rfl) ts⟩
  rw [List.map_map]
  rfl

/-- The expression `x + x` and six traces, on its line and on another one. Two of them are
loads of `x` that are kept, and the others are left out. -/
def unusedTraces : List (UInt32 × Trace) × (TraceKey → Bool) × Node :=
  ([(1, ⟨.other, .none, []⟩), (1, ⟨.loadName, .str "x", [.any]⟩), (2, ⟨.loadName, .str "x", []⟩),
      (1, ⟨.loadConst, .int 1, []⟩), (1, ⟨.loadName, .str "x", []⟩),
      (1, ⟨.loadName, .str "x", []⟩)],
    fun key => key ∈ ([⟨1, 1⟩, ⟨1, 3⟩] : List TraceKey),
    .ofBody [.mk (.binOp (.mk (.name "x" .load) ⟨1, 0⟩) "Add" (.mk (.name "x" .load) ⟨1, 4⟩))
      ⟨1, 0⟩])

/-- The two records stay, and their traces move up to the start of the line. -/
theorem align_unusedTraces :
    let (ts, kept, n) := unusedTraces
    let left := ((Store.ofText "").occurrences ts).filter (kept ·.key)
    ∃ records records',
      (Aligner.mk (.ofTraces "" ts) ⟨3, 7⟩).align n = .ok records ∧
        (∀ r ∈ records, kept r.key = true) ∧
        (Aligner.mk (.ofTraces "" (left.map Claim.placed)) ⟨3, 7⟩).align n = .ok records' ∧
        records.map (·.key) = [⟨1, 1⟩, ⟨1, 3⟩] ∧ records'.map (·.key) = [⟨1, 0⟩, ⟨1, 1⟩] := by
  obtain ⟨-, -, -, records, halign, hleft⟩ :=
    Aligner.align_left ⟨3, 7⟩ unusedTraces.2.2 "" unusedTraces.1 unusedTraces.2.1
  have hkept : ∀ r ∈ records, unusedTraces.2.1 r.key = true := by
    rw [Aligner.eq_serve_of_align halign]
    decide +kernel
  obtain ⟨records', halign', -, -, -⟩ := hleft hkept
  refine ⟨records, records', halign, hkept, halign', ?_, ?_⟩
  · rw [Aligner.eq_serve_of_align halign]
    decide +kernel
  · rw [Aligner.eq_serve_of_align halign']
    decide +kernel

end TypeTrace

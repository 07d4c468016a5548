import Mathlib.Data.List.Nodup
import Mathlib.Data.List.Perm.Subperm
import TypeTrace.Trace.Claim

/-!
# What one request claims

Claiming scans a line with an index and a traversal that changes on the way. Here
the scan is put in closed form: the entries of a line are its traces with their
keys, and a request claims the first of the entries that fit and that nobody has
claimed before.

Main results:

* `claim_eq`: the closed form of one request, with the state that it leaves;
* `mem_entries`: an entry of a line is a key of that line with the trace it names;
* `length_le_size`: distinct keys of a store are no more than its traces.
-/

namespace TypeTrace

/-! ## The entries of a line -/

/-- Traces of a line with their keys, the first one at `index`. -/
def entriesFrom (line : UInt32) (index : Nat) (ts : List Trace) : List Claim :=
  (ts.zipIdx index).map fun p => { key := ⟨line, p.2⟩, trace := p.1 }

@[simp]
theorem entriesFrom_nil (line : UInt32) (index : Nat) : entriesFrom line index [] = [] :=
  rfl

@[simp]
theorem entriesFrom_cons (line : UInt32) (index : Nat) (t : Trace) (ts : List Trace) :
    entriesFrom line index (t :: ts) =
      { key := ⟨line, index⟩, trace := t } :: entriesFrom line (index + 1) ts :=
  rfl

/-- The keys of later entries have later indices. -/
theorem le_index_of_mem_entriesFrom {line : UInt32} {index : Nat} {ts : List Trace} {c : Claim}
    (h : c ∈ entriesFrom line index ts) : index ≤ c.key.index := by
  rcases List.mem_map.1 h with ⟨p, hp, rfl⟩
  exact List.le_snd_of_mem_zipIdx hp

/-- Entries stand in the order of their indices. -/
theorem pairwise_entriesFrom (line : UInt32) (index : Nat) (ts : List Trace) :
    (entriesFrom line index ts).Pairwise (·.key.index < ·.key.index) := by
  induction ts generalizing index with
  | nil => exact List.Pairwise.nil
  | cons t ts ih =>
      rw [entriesFrom_cons, List.pairwise_cons]
      exact ⟨fun c hc => le_index_of_mem_entriesFrom hc, ih (index + 1)⟩

namespace Store

/-- The traces of a line with their keys, in the order of execution. -/
def entries (s : Store) (line : UInt32) : List Claim := entriesFrom line 0 (s.traces line)

/-- The entries of a line are its keys with the traces that the store has there. -/
theorem mem_entries {s : Store} {line : UInt32} {c : Claim} :
    c ∈ s.entries line ↔ c.key.line = line ∧ s.get? c.key = some c.trace := by
  unfold entries entriesFrom get?
  rw [List.mem_map]
  constructor
  · rintro ⟨p, hp, rfl⟩
    exact ⟨rfl, List.mem_zipIdx_iff_getElem?.1 hp⟩
  · rintro ⟨rfl, h⟩
    exact ⟨(c.trace, c.key.index), List.mem_zipIdx_iff_getElem?.2 h, rfl⟩

/-- The keys of a line are distinct. -/
theorem nodup_entries (s : Store) (line : UInt32) : ((s.entries line).map (·.key)).Nodup := by
  have hkeys : (s.entries line).map (·.key) =
      (List.range' 0 (s.traces line).length).map fun i => ⟨line, i⟩ := by
    unfold entries entriesFrom
    rw [List.map_map, ← List.zipIdx_map_snd, List.map_map]
    rfl
  rw [hkeys]
  exact List.Nodup.map (fun i j hij => (TraceKey.mk.inj hij).2) List.nodup_range'

/-- All keys of a store, in the order of the lines. -/
def keys (s : Store) : List TraceKey :=
  s.table.toList.flatMap fun e => (List.range e.2.length).map fun i => ⟨e.1, i⟩

theorem length_keys (s : Store) : s.keys.length = s.size := by
  unfold keys size SortedMap.values
  rw [List.length_flatMap, List.length_flatten, List.map_map]
  congr 1
  apply List.map_congr_left
  intro e _
  rw [List.length_map, List.length_range, Function.comp_apply]

theorem mem_keys_of_get? {s : Store} {key : TraceKey} {t : Trace} (h : s.get? key = some t) :
    key ∈ s.keys := by
  unfold get? traces at h
  cases hline : s.table.find? key.line with
  | none => simp [hline] at h
  | some ts =>
      rw [hline] at h
      have hlt : key.index < ts.length := (List.getElem?_eq_some_iff.1 h).1
      refine List.mem_flatMap.2 ⟨(key.line, ts), (SortedMap.mem_toList_iff _ _ _).2 hline, ?_⟩
      exact List.mem_map.2 ⟨key.index, List.mem_range.2 hlt, rfl⟩

/-- Distinct keys that the store has traces for are no more than its traces. -/
theorem length_le_size {s : Store} {ks : List TraceKey} (hnodup : ks.Nodup)
    (h : ∀ k ∈ ks, ∃ t, s.get? k = some t) : ks.length ≤ s.size := by
  rw [← length_keys]
  have hsub : ks ⊆ s.keys := by
    intro k hk
    rcases h k hk with ⟨t, ht⟩
    exact mem_keys_of_get? ht
  exact (hnodup.subperm hsub).length_le

end Store

/-! ## The closed form of a claim -/

/-- At most `limit` items from the start of a list, or all of them. -/
def upTo {α : Type} (limit : Option Nat) (l : List α) : List α :=
  match limit with
  | none => l
  | some n => l.take n

theorem upTo_sublist {α : Type} (limit : Option Nat) (l : List α) : (upTo limit l).Sublist l := by
  cases limit with
  | none => exact List.Sublist.refl l
  | some n => exact List.take_sublist n l

theorem upTo_cons {α : Type} {limit : Option Nat} (h : limit ≠ some 0) (a : α) (l : List α) :
    upTo limit (a :: l) = a :: upTo (limit.map (· - 1)) l := by
  rcases limit with _ | _ | n
  · rfl
  · exact absurd rfl h
  · rfl

/-- The state in which some more claims were made. -/
def Traversal.take (tr : Traversal) (claims : List Claim) : Traversal :=
  { tr with claimed := (claims.map (·.key)).reverse ++ tr.claimed }

@[simp]
theorem Traversal.take_nil (tr : Traversal) : tr.take [] = tr :=
  rfl

theorem Traversal.take_cons (tr : Traversal) (c : Claim) (claims : List Claim) :
    tr.take (c :: claims) = (tr.claim c.key).take claims := by
  simp [take, claim]

theorem Traversal.take_append (tr : Traversal) (first second : List Claim) :
    tr.take (first ++ second) = (tr.take first).take second := by
  simp [take]

namespace Request

/-- Does an entry fit a request, and is it still to be claimed? -/
def isOpen (r : Request) (tr : Traversal) (c : Claim) : Bool :=
  !tr.isClaimed c.key && r.accepts c.trace

/-- Claiming a key closes no entry with another key. -/
theorem isOpen_claim {r : Request} {tr : Traversal} {key : TraceKey} {c : Claim}
    (h : c.key ≠ key) : r.isOpen (tr.claim key) c = r.isOpen tr c := by
  unfold isOpen
  rw [Traversal.isClaimed_claim, decide_eq_false h, Bool.false_or]

/-- A scan of a line claims the first entries that are open when it starts. -/
theorem claimFrom_eq (r : Request) (ts : List Trace) (index : Nat) (limit : Option Nat)
    (tr : Traversal) :
    let found := upTo limit ((entriesFrom r.line index ts).filter (r.isOpen tr))
    r.claimFrom index limit ts tr = (found, tr.take found) := by
  induction ts generalizing index limit tr with
  | nil => rcases limit with _ | _ | n <;> rfl
  | cons t ts ih =>
      by_cases hlimit : limit = some 0
      · subst hlimit
        simp [claimFrom, upTo]
      · have hrest :
            (entriesFrom r.line (index + 1) ts).filter (r.isOpen (tr.claim ⟨r.line, index⟩)) =
              (entriesFrom r.line (index + 1) ts).filter (r.isOpen tr) := by
          apply List.filter_congr
          intro c hc
          apply isOpen_claim
          intro hkey
          have hle : index + 1 ≤ c.key.index := le_index_of_mem_entriesFrom hc
          rw [hkey] at hle
          exact absurd hle (Nat.not_succ_le_self index)
        -- the scan passes an entry by exactly if the entry is not open
        have hpass : (tr.isClaimed ⟨r.line, index⟩ || !r.accepts t) =
            !r.isOpen tr ⟨⟨r.line, index⟩, t⟩ := by
          simp [isOpen]
        rw [entriesFrom_cons, claimFrom]
        dsimp only
        rw [hpass]
        cases hopen : r.isOpen tr ⟨⟨r.line, index⟩, t⟩ with
        | false =>
            rw [List.filter_cons_of_neg (by simp [hopen])]
            exact ih (index + 1) limit tr
        | true =>
            have hnext := ih (index + 1) (limit.map (· - 1)) (tr.claim ⟨r.line, index⟩)
            rw [hrest] at hnext
            rw [List.filter_cons_of_pos hopen, upTo_cons hlimit, Traversal.take_cons,
              if_neg (by decide), hnext]
        · exact hlimit

/-- A request claims the first entries of its line that fit and are unclaimed, as
many as its limit allows, and nothing else changes. -/
theorem claim_eq (r : Request) (limit : Option Nat) (store : Store) (tr : Traversal) :
    let found := upTo limit ((store.entries r.line).filter (r.isOpen tr))
    r.claim limit store tr = (found, tr.take found) :=
  r.claimFrom_eq (store.traces r.line) 0 limit tr

/-- The state after a request is the one in which its claims were made. -/
theorem claim_snd (r : Request) (limit : Option Nat) (store : Store) (tr : Traversal) :
    (r.claim limit store tr).2 = tr.take (r.claim limit store tr).1 := by
  rw [claim_eq]

end Request

end TypeTrace

/-!
# Finite maps in key order

A `SortedMap` is an association list whose keys increase strictly, so every
table of this library is listed in the order of its keys and two tables with
the same bindings are equal.

Main statements:

* `SortedMap.find?_upsert`, `SortedMap.find?_modify`: an update is seen at its
  own key and nowhere else;
* `SortedMap.mem_toList_iff`: the listing holds exactly the bindings;
* `SortedMap.ext_find?`: equal bindings make equal maps.
-/

namespace TypeTrace

universe u v w

/-- A finite map, kept as its bindings in strictly increasing key order. -/
structure SortedMap (κ : Type u) (ν : Type v) [Ord κ] where
  /-- The bindings, smallest key first. -/
  toList : List (κ × ν)
  increasing : toList.Pairwise fun a b => compare a.1 b.1 = .lt

namespace SortedMap

variable {κ : Type u} {ν : Type v} [Ord κ]

/-! ## Operations on lists of bindings -/

/-- The value bound to `k` in a list of bindings. -/
def lookup (k : κ) : List (κ × ν) → Option ν
  | [] => none
  | (k', v) :: rest => if compare k k' = .eq then some v else lookup k rest

/-- Rebinds `k` to `f` of its present value, at its place in the order. -/
def place (k : κ) (f : Option ν → ν) : List (κ × ν) → List (κ × ν)
  | [] => [(k, f none)]
  | (k', v) :: rest =>
    match compare k k' with
    | .lt => (k, f none) :: (k', v) :: rest
    | .eq => (k', f (some v)) :: rest
    | .gt => (k', v) :: place k f rest

/-- A key before all others is not bound. -/
theorem lookup_eq_none_of_lt {k : κ} {l : List (κ × ν)}
    (h : ∀ e ∈ l, compare k e.1 = .lt) : lookup k l = none := by
  induction l with
  | nil => rfl
  | cons e rest ih =>
    have he := h e (by simp)
    simp [lookup, he, ih fun e' he' => h e' (by simp [he'])]

section Lawful

variable [Std.LawfulEqOrd κ]

/-- A rebound list has no other keys than before and the one that was bound. -/
theorem mem_place {k : κ} {f : Option ν → ν} {l : List (κ × ν)} {e : κ × ν}
    (h : e ∈ place k f l) : e.1 = k ∨ e ∈ l := by
  induction l with
  | nil => simp_all [place]
  | cons head rest ih =>
    obtain ⟨k', v⟩ := head
    simp only [place] at h
    split at h
    · rcases List.mem_cons.1 h with rfl | h
      · exact .inl rfl
      · exact .inr h
    · rename_i heq
      have := Std.LawfulEqOrd.eq_of_compare heq
      rcases List.mem_cons.1 h with rfl | h
      · exact .inl this.symm
      · exact .inr (List.mem_cons_of_mem _ h)
    · rcases List.mem_cons.1 h with rfl | h
      · exact .inr (by simp)
      · rcases ih h with h | h
        · exact .inl h
        · exact .inr (List.mem_cons_of_mem _ h)

/-- In a list with increasing keys the value that is found is that of the only binding. -/
theorem lookup_eq_some_iff {k : κ} {v : ν} {l : List (κ × ν)}
    (h : l.Pairwise fun a b => compare a.1 b.1 = .lt) :
    lookup k l = some v ↔ (k, v) ∈ l := by
  induction l with
  | nil => simp [lookup]
  | cons head rest ih =>
    obtain ⟨k', v'⟩ := head
    obtain ⟨hhead, hrest⟩ := List.pairwise_cons.1 h
    by_cases hk : k = k'
    · subst hk
      have hno : (k, v) ∉ rest := fun hmem => by
        have := hhead _ hmem
        simp at this
      simp [lookup, hno, eq_comm]
    · simp [lookup, hk, ih hrest]

/-- Of the bindings in key order only that of `k` has the key `k`. -/
theorem flatMap_eq_lookup [DecidableEq κ] {β : Type w} (f : ν → List β) {k : κ}
    {l : List (κ × ν)} (h : l.Pairwise fun a b => compare a.1 b.1 = .lt) :
    (l.flatMap fun e => if e.1 = k then f e.2 else []) = (lookup k l).elim [] f := by
  induction l with
  | nil => rfl
  | cons e rest ih =>
    obtain ⟨hhead, hrest⟩ := List.pairwise_cons.1 h
    rw [List.flatMap_cons, ih hrest]
    by_cases hk : e.1 = k
    · subst hk
      simp [lookup, lookup_eq_none_of_lt hhead]
    · simp [lookup, hk, Ne.symm hk]

variable [Std.TransOrd κ]

/-- Rebinding a key keeps the keys increasing. -/
theorem pairwise_place (k : κ) (f : Option ν → ν) {l : List (κ × ν)}
    (h : l.Pairwise fun a b => compare a.1 b.1 = .lt) :
    (place k f l).Pairwise fun a b => compare a.1 b.1 = .lt := by
  induction l with
  | nil => simp [place]
  | cons head rest ih =>
    obtain ⟨k', v⟩ := head
    obtain ⟨hhead, hrest⟩ := List.pairwise_cons.1 h
    simp only [place]
    split
    · rename_i hlt
      refine List.pairwise_cons.2 ⟨fun e he => ?_, h⟩
      rcases List.mem_cons.1 he with rfl | he
      · exact hlt
      · exact Std.TransCmp.lt_trans hlt (hhead e he)
    · exact List.pairwise_cons.2 ⟨hhead, hrest⟩
    · rename_i hgt
      refine List.pairwise_cons.2 ⟨fun e he => ?_, ih hrest⟩
      rcases mem_place he with he | he
      · rw [he]
        exact Std.OrientedCmp.lt_of_gt hgt
      · exact hhead e he

/-- Rebinding a key is seen at this key alone. -/
theorem lookup_place [DecidableEq κ] (k k' : κ) (f : Option ν → ν) {l : List (κ × ν)}
    (h : l.Pairwise fun a b => compare a.1 b.1 = .lt) :
    lookup k' (place k f l) =
      if k' = k then some (f (lookup k l)) else lookup k' l := by
  induction l with
  | nil =>
    by_cases hk : k' = k
    · subst hk; simp [place, lookup]
    · simp [place, lookup, hk]
  | cons head rest ih =>
    obtain ⟨k'', v⟩ := head
    obtain ⟨hhead, hrest⟩ := List.pairwise_cons.1 h
    simp only [place]
    split
    · rename_i hlt
      have hnone : lookup k ((k'', v) :: rest) = none := by
        refine lookup_eq_none_of_lt fun e he => ?_
        rcases List.mem_cons.1 he with rfl | he
        · exact hlt
        · exact Std.TransCmp.lt_trans hlt (hhead e he)
      by_cases hk : k' = k
      · subst hk; rw [hnone]; simp [lookup]
      · rw [if_neg hk]; simp [lookup, hk]
    · rename_i heq
      have hkk : k = k'' := Std.LawfulEqOrd.eq_of_compare heq
      subst hkk
      by_cases hk : k' = k
      · subst hk; simp [lookup]
      · simp [lookup, hk]
    · rename_i hgt
      have hne : k ≠ k'' := by
        rintro rfl
        simp at hgt
      by_cases hk : k' = k
      · subst hk
        simp [lookup, hne, ih hrest]
      · simp [lookup, hk, ih hrest]

/-- Two listings in key order with the same bindings are equal. -/
theorem list_ext {l₁ l₂ : List (κ × ν)}
    (h₁ : l₁.Pairwise fun a b => compare a.1 b.1 = .lt)
    (h₂ : l₂.Pairwise fun a b => compare a.1 b.1 = .lt)
    (h : ∀ k, lookup k l₁ = lookup k l₂) : l₁ = l₂ := by
  induction l₁ generalizing l₂ with
  | nil =>
    cases l₂ with
    | nil => rfl
    | cons e _ => have := h e.1; simp [lookup] at this
  | cons e₁ r₁ ih =>
    cases l₂ with
    | nil => have := h e₁.1; simp [lookup] at this
    | cons e₂ r₂ =>
      obtain ⟨k₁, v₁⟩ := e₁
      obtain ⟨k₂, v₂⟩ := e₂
      obtain ⟨hh₁, hr₁⟩ := List.pairwise_cons.1 h₁
      obtain ⟨hh₂, hr₂⟩ := List.pairwise_cons.1 h₂
      have hmem₁ : (k₁, v₁) ∈ (k₂, v₂) :: r₂ :=
        (lookup_eq_some_iff h₂).1 (by rw [← h]; simp [lookup])
      have hmem₂ : (k₂, v₂) ∈ (k₁, v₁) :: r₁ :=
        (lookup_eq_some_iff h₁).1 (by rw [h]; simp [lookup])
      have hee : (k₁, v₁) = (k₂, v₂) := by
        rcases List.mem_cons.1 hmem₁ with heq | hin₁
        · exact heq
        · rcases List.mem_cons.1 hmem₂ with heq | hin₂
          · exact heq.symm
          · have hlt := hh₂ _ hin₁
            have hgt := hh₁ _ hin₂
            have := Std.TransCmp.lt_trans hlt hgt
            simp at this
      cases hee
      congr 1
      refine ih hr₁ hr₂ fun k => ?_
      by_cases hk : k = k₁
      · subst hk
        rw [lookup_eq_none_of_lt hh₁, lookup_eq_none_of_lt hh₂]
      · have := h k
        simpa [lookup, hk] using this

end Lawful

/-! ## Maps -/

/-- The map without bindings. -/
def empty : SortedMap κ ν := ⟨[], .nil⟩

instance : Inhabited (SortedMap κ ν) := ⟨empty⟩

/-- The value bound to a key. -/
def find? (m : SortedMap κ ν) (k : κ) : Option ν := lookup k m.toList

/-- Is the key bound? -/
def contains (m : SortedMap κ ν) (k : κ) : Bool := (m.find? k).isSome

/-- The keys, in order. -/
def keys (m : SortedMap κ ν) : List κ := m.toList.map (·.1)

/-- The values, in the order of their keys. -/
def values (m : SortedMap κ ν) : List ν := m.toList.map (·.2)

/-- The number of bindings. -/
def size (m : SortedMap κ ν) : Nat := m.toList.length

/-- Takes the binding of `k` out, if there is one. -/
def erase [DecidableEq κ] (m : SortedMap κ ν) (k : κ) : SortedMap κ ν where
  toList := m.toList.filter fun e => e.1 ≠ k
  increasing := m.increasing.filter _

section Updates

variable [Std.TransOrd κ] [Std.LawfulEqOrd κ]

/-- Binds `k` to `f` of its present value, if any. -/
def upsert (m : SortedMap κ ν) (k : κ) (f : Option ν → ν) : SortedMap κ ν :=
  ⟨place k f m.toList, pairwise_place k f m.increasing⟩

/-- Binds `k` to `v`; a present value is replaced. -/
def insert (m : SortedMap κ ν) (k : κ) (v : ν) : SortedMap κ ν :=
  m.upsert k fun _ => v

/-- Changes the value of `k`, if it has one. -/
def modify (m : SortedMap κ ν) (k : κ) (f : ν → ν) : SortedMap κ ν :=
  match m.find? k with
  | none => m
  | some v => m.insert k (f v)

/-- The bindings of a list; of several for one key the last one holds. -/
def ofList (l : List (κ × ν)) : SortedMap κ ν :=
  l.foldl (fun m e => m.insert e.1 e.2) empty

end Updates

/-! ## The view through `find?` -/

@[simp]
theorem find?_empty (k : κ) : (empty : SortedMap κ ν).find? k = none :=
  rfl

section Lemmas

variable [Std.LawfulEqOrd κ]

/-- The listing holds exactly the bindings. -/
theorem mem_toList_iff (m : SortedMap κ ν) (k : κ) (v : ν) :
    (k, v) ∈ m.toList ↔ m.find? k = some v :=
  (lookup_eq_some_iff m.increasing).symm

/-- The keys are those that are bound. -/
theorem mem_keys_iff (m : SortedMap κ ν) (k : κ) :
    k ∈ m.keys ↔ (m.find? k).isSome = true := by
  unfold keys
  rw [List.mem_map, Option.isSome_iff_exists]
  constructor
  · rintro ⟨⟨k, v⟩, h, rfl⟩
    exact ⟨v, (m.mem_toList_iff k v).1 h⟩
  · rintro ⟨v, h⟩
    exact ⟨(k, v), (m.mem_toList_iff k v).2 h, rfl⟩

theorem flatMap_toList [DecidableEq κ] {β : Type w} (m : SortedMap κ ν) (k : κ)
    (f : ν → List β) :
    (m.toList.flatMap fun e => if e.1 = k then f e.2 else []) = (m.find? k).elim [] f :=
  flatMap_eq_lookup f m.increasing

/-- A binding that is taken out is missing at its own key alone. -/
theorem find?_erase [DecidableEq κ] (m : SortedMap κ ν) (k k' : κ) :
    (m.erase k).find? k' = if k' = k then none else m.find? k' := by
  ext v
  rw [← mem_toList_iff, erase, List.mem_filter, mem_toList_iff]
  by_cases h : k' = k <;> simp [h]

variable [Std.TransOrd κ]

/-- Binding a key anew is seen at this key alone. -/
theorem find?_upsert [DecidableEq κ] (m : SortedMap κ ν) (k k' : κ) (f : Option ν → ν) :
    (m.upsert k f).find? k' = if k' = k then some (f (m.find? k)) else m.find? k' :=
  lookup_place k k' f m.increasing

/-- A value that is put in is found at its own key, and all others are found as before. -/
theorem find?_insert [DecidableEq κ] (m : SortedMap κ ν) (k k' : κ) (v : ν) :
    (m.insert k v).find? k' = if k' = k then some v else m.find? k' :=
  m.find?_upsert k k' _

/-- Changing a value is seen at its own key, and only if that is bound. -/
theorem find?_modify [DecidableEq κ] (m : SortedMap κ ν) (k k' : κ) (f : ν → ν) :
    (m.modify k f).find? k' = if k' = k then (m.find? k).map f else m.find? k' := by
  unfold modify
  split
  · rename_i h
    by_cases hk : k' = k
    · subst hk; simp [h]
    · simp [hk]
  · rename_i v h
    rw [find?_insert, h]
    rfl

/-- A map is determined by what it binds. -/
theorem ext_find? {m₁ m₂ : SortedMap κ ν} (h : ∀ k, m₁.find? k = m₂.find? k) : m₁ = m₂ := by
  obtain ⟨l₁, h₁⟩ := m₁
  obtain ⟨l₂, h₂⟩ := m₂
  have : l₁ = l₂ := list_ext h₁ h₂ h
  subst this
  rfl

end Lemmas

instance [DecidableEq κ] [DecidableEq ν] : DecidableEq (SortedMap κ ν) := fun a b =>
  if h : a.toList = b.toList then
    .isTrue (by cases a; cases b; cases h; rfl)
  else
    .isFalse fun hab => h (by rw [hab])

end SortedMap

end TypeTrace

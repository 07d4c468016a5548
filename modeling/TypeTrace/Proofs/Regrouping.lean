import TypeTrace.Proofs.Visits
import TypeTrace.Trace.Annotation

/-!
# Regrouping by place

A tree is aligned in the order of its walk, and the places of what is found come in any
order. Annotations list the same traces place by place. What they hold is said here without
any table: they are the stable sort of the found traces by line and column.

Main results:

* `eq_of_sorted_of_filter_eq`: a sorted list is known from its items at each key;
* `Annotations.groups_ofAlignments`: the table has one group for each place;
* `Annotations.filter_listing`: a group is what the whole listing has at its place;
* `Aligner.annotate_regroups`: annotating a tree sorts its alignment stably.
-/

namespace TypeTrace

/-! ## Sorting by a key -/

section SortedByKey

variable {α κ : Type} [DecidableEq κ] {le : κ → κ → Prop} {key : α → κ}

/-- The heads have the smallest keys, and each key that occurs in one list occurs in both. -/
theorem key_eq_of_filter_eq {a b : α} {l l' : List α} (hanti : ∀ k k', le k k' → le k' k → k = k')
    (hl : (a :: l).Pairwise fun x y => le (key x) (key y))
    (hl' : (b :: l').Pairwise fun x y => le (key x) (key y))
    (h : ∀ k, (a :: l).filter (key · = k) = (b :: l').filter (key · = k)) : key a = key b := by
  have ha : a ∈ (b :: l').filter (key · = key a) := by
    rw [← h]
    exact List.mem_filter.2 ⟨List.mem_cons_self, decide_eq_true rfl⟩
  have hb : b ∈ (a :: l).filter (key · = key b) := by
    rw [h]
    exact List.mem_filter.2 ⟨List.mem_cons_self, decide_eq_true rfl⟩
  rcases List.mem_cons.1 (List.mem_of_mem_filter ha) with rfl | ha
  · rfl
  · rcases List.mem_cons.1 (List.mem_of_mem_filter hb) with rfl | hb
    · rfl
    · exact hanti _ _ ((List.pairwise_cons.1 hl).1 b hb) ((List.pairwise_cons.1 hl').1 a ha)

/-- Two lists sorted by a key are equal if at each key they have the same items in the same
order. -/
theorem eq_of_sorted_of_filter_eq {l l' : List α} (hanti : ∀ k k', le k k' → le k' k → k = k')
    (hl : l.Pairwise fun x y => le (key x) (key y))
    (hl' : l'.Pairwise fun x y => le (key x) (key y))
    (h : ∀ k, l.filter (key · = k) = l'.filter (key · = k)) : l = l' := by
  induction l generalizing l' with
  | nil =>
      cases l' with
      | nil => rfl
      | cons b l' =>
          have hb := h (key b)
          simp at hb
  | cons a l ih =>
      cases l' with
      | nil =>
          have ha := h (key a)
          simp at ha
      | cons b l' =>
          have hkey := key_eq_of_filter_eq hanti hl hl' h
          have hheads := h (key a)
          rw [List.filter_cons_of_pos (by simp), List.filter_cons_of_pos (by simp [hkey])] at hheads
          rcases List.cons.inj hheads with ⟨rfl, -⟩
          congr 1
          refine ih hl.of_cons hl'.of_cons fun k => ?_
          by_cases hk : key a = k
          · have hall := h k
            rw [List.filter_cons_of_pos (by simpa using hk),
              List.filter_cons_of_pos (by simpa using hk)] at hall
            exact (List.cons.inj hall).2
          · have hall := h k
            rwa [List.filter_cons_of_neg (by simpa using hk),
              List.filter_cons_of_neg (by simpa using hk)] at hall

end SortedByKey

/-! ## The order of places -/

namespace Location

/-- Does a place stand on an earlier line, or further left on the same line? -/
def Before (l l' : Location) : Prop := l.line < l'.line ∨ l.line = l'.line ∧ l.col < l'.col

/-- Does a place stand before another one or at it? -/
def AtOrBefore (l l' : Location) : Prop := l.line < l'.line ∨ l.line = l'.line ∧ l.col ≤ l'.col

instance (l l' : Location) : Decidable (l.AtOrBefore l') :=
  inferInstanceAs (Decidable (_ ∨ _))

/-- The keys of a table of places increase in this order. -/
theorem compare_eq_lt_iff {l l' : Location} : compare l l' = .lt ↔ l.Before l' := by
  have hlex : compare l l' = (compare l.line l'.line).then (compare l.col l'.col) := rfl
  rw [hlex, Ordering.then_eq_lt, Std.compare_eq_lt, Std.compare_eq_iff_eq, Std.compare_eq_lt]
  rfl

/-- A place before another one is also at or before it. -/
theorem Before.atOrBefore {l l' : Location} (h : l.Before l') : l.AtOrBefore l' := by
  rcases h with hline | ⟨hline, hcol⟩
  · exact .inl hline
  · exact .inr ⟨hline, UInt32.le_of_lt hcol⟩

namespace AtOrBefore

variable {l l' l'' : Location}

theorem refl (l : Location) : l.AtOrBefore l := .inr ⟨rfl, UInt32.le_refl _⟩

/-- The order of places is transitive. -/
theorem trans (h : l.AtOrBefore l') (h' : l'.AtOrBefore l'') : l.AtOrBefore l'' := by
  unfold AtOrBefore at *
  grind

/-- Any two places are in order one way or the other. -/
theorem total (l l' : Location) : l.AtOrBefore l' ∨ l'.AtOrBefore l := by
  unfold AtOrBefore
  grind

/-- Places that are in order both ways are the same. -/
theorem antisymm (h : l.AtOrBefore l') (h' : l'.AtOrBefore l) : l = l' := by
  unfold AtOrBefore at *
  grind [cases Location]

end AtOrBefore

end Location

/-! ## The stable sort by place -/

section SortByPlace

variable {α : Type} (place : α → Location)

/-- May an item stand before another one in the order of their places? -/
def placeLe (x y : α) : Bool := decide ((place x).AtOrBefore (place y))

theorem placeLe_trans (x y z : α) : placeLe place x y → placeLe place y z → placeLe place x z := by
  simpa [placeLe] using Location.AtOrBefore.trans

theorem placeLe_total (x y : α) : placeLe place x y || placeLe place y x := by
  simpa [placeLe] using Location.AtOrBefore.total (place x) (place y)

/-- The items of a list by their places; items of one place keep their order. -/
def sortByPlace (l : List α) : List α := l.mergeSort (placeLe place)

/-- The sorted list is in the order of its places. -/
theorem pairwise_sortByPlace (l : List α) :
    (sortByPlace place l).Pairwise fun x y => (place x).AtOrBefore (place y) :=
  (List.pairwise_mergeSort (placeLe_trans place) (placeLe_total place) l).imp of_decide_eq_true

/-- Sorting keeps the items of each place and their order. -/
theorem filter_sortByPlace (l : List α) (loc : Location) :
    (sortByPlace place l).filter (place · = loc) = l.filter (place · = loc) := by
  have hsorted : (l.filter (place · = loc)).Pairwise fun x y => placeLe place x y := by
    refine List.pairwise_of_forall_mem_list fun x hx y hy => ?_
    have hx : place x = loc := by simpa using (List.mem_filter.1 hx).2
    have hy : place y = loc := by simpa using (List.mem_filter.1 hy).2
    rw [placeLe, hx, hy]
    exact decide_eq_true (.refl loc)
  have hsub : (l.filter (place · = loc)).Sublist (sortByPlace place l) :=
    List.sublist_mergeSort (placeLe_trans place) (placeLe_total place) hsorted List.filter_sublist
  have hsame := hsub.filter (place · = loc)
  rw [List.filter_filter] at hsame
  simp only [Bool.and_self] at hsame
  -- a sublist of the sorted items of the place that is as long as all of them
  exact (hsame.eq_of_length ((List.mergeSort_perm l _).filter _).length_eq.symm).symm

/-- Sorting goes through a map that keeps places. -/
theorem map_sortByPlace {β : Type} (place' : β → Location) {f : α → β}
    (h : ∀ x, place' (f x) = place x) (l : List α) :
    (sortByPlace place l).map f = sortByPlace place' (l.map f) := by
  refine List.map_mergeSort fun x _ y _ => ?_
  rw [placeLe, placeLe, h, h]

end SortByPlace

/-! ## Groups -/

namespace Annotations

/-- What is annotated at a place: the traces found for it, in the order of the walk. -/
def groupAt (found : List Alignment) (loc : Location) : List Annotation :=
  (found.filter (·.location = loc)).map fun a => .ofTrace a.trace

/-- A record that is found last is put last in the group of its place. -/
theorem groupAt_concat (found : List Alignment) (a : Alignment) (loc : Location) :
    groupAt (found ++ [a]) loc =
      if loc = a.location then groupAt found loc ++ [.ofTrace a.trace] else groupAt found loc := by
  unfold groupAt
  rw [List.filter_append, List.map_append, List.filter_singleton]
  by_cases h : loc = a.location
  · simp [h]
  · simp [h, Ne.symm h]

/-- The table has the groups of some alignments, and no empty one. -/
structure Groups (m : Annotations) (found : List Alignment) : Prop where
  entriesAt_eq : ∀ loc, m.entriesAt loc = groupAt found loc
  ne_nil : ∀ e ∈ m.toList, e.2 ≠ []

theorem groups_empty : Groups ⟨.empty⟩ [] where
  entriesAt_eq := fun _ => rfl
  ne_nil := by
    intro e he
    exact absurd he List.not_mem_nil

/-- One more alignment goes to the end of the group of its place. -/
theorem Groups.add {m : Annotations} {found : List Alignment} (h : m.Groups found)
    (a : Alignment) : (m.add a).Groups (found ++ [a]) := by
  constructor
  · intro loc
    rw [entriesAt_add, groupAt_concat, h.entriesAt_eq]
  · rintro ⟨loc, entries⟩ he
    have hfind := ((m.add a).table.mem_toList_iff loc entries).1 he
    rw [Annotations.add, SortedMap.find?_upsert] at hfind
    by_cases hloc : loc = a.location
    · rw [if_pos hloc] at hfind
      rcases Option.some.inj hfind with rfl
      exact List.concat_ne_nil _ _
    · rw [if_neg hloc] at hfind
      exact h.ne_nil _ ((m.table.mem_toList_iff loc entries).2 hfind)

/-- Adding records one after the other keeps the groups of what was found. -/
theorem Groups.foldl {m : Annotations} {before : List Alignment} (h : m.Groups before)
    (found : List Alignment) : (found.foldl Annotations.add m).Groups (before ++ found) := by
  induction found generalizing m before with
  | nil => rwa [List.append_nil]
  | cons a found ih =>
      have hrest := ih (h.add a)
      rwa [List.append_assoc] at hrest

theorem groups_ofAlignments (found : List Alignment) : (ofAlignments found).Groups found :=
  groups_empty.foldl found

/-! ## The whole listing -/

/-- The annotations of all places, one after the other, each with its place. -/
def listing (m : Annotations) : List (Location × Annotation) :=
  m.toList.flatMap fun e => e.2.map (e.1, ·)

/-- The places of an annotation increase strictly. -/
theorem pairwise_toList (m : Annotations) : m.toList.Pairwise fun e e' => e.1.Before e'.1 :=
  m.table.increasing.imp Location.compare_eq_lt_iff.1

/-- The entries of an annotation are listed in the order of their places. -/
theorem pairwise_listing (m : Annotations) :
    m.listing.Pairwise fun p p' => p.1.AtOrBefore p'.1 := by
  rw [listing, List.pairwise_flatMap]
  constructor
  · intro e _
    exact List.pairwise_map.2 (List.pairwise_of_forall_mem_list fun _ _ _ _ => .refl e.1)
  · refine m.pairwise_toList.imp fun he p hp p' hp' => ?_
    rcases List.mem_map.1 hp with ⟨entry, -, rfl⟩
    rcases List.mem_map.1 hp' with ⟨entry', -, rfl⟩
    exact he.atOrBefore

/-- A place has its group in the listing and nothing else. -/
theorem filter_listing (m : Annotations) (loc : Location) :
    m.listing.filter (·.1 = loc) = (m.entriesAt loc).map (loc, ·) := by
  unfold listing entriesAt
  rw [List.filter_flatMap]
  have hgroup (e : Location × List Annotation) :
      (e.2.map (e.1, ·)).filter (·.1 = loc) = if e.1 = loc then e.2.map (loc, ·) else [] := by
    by_cases h : e.1 = loc
    · simp [h, List.filter_map, Function.comp_def]
    · simp [h, List.filter_map, Function.comp_def]
  rw [List.flatMap_congr fun e _ => hgroup e]
  refine (m.table.flatMap_toList loc (List.map (loc, ·))).trans ?_
  cases m.table.find? loc <;> rfl

/-- The listing of annotated alignments sorts them by place. -/
theorem listing_ofAlignments (found : List Alignment) :
    (ofAlignments found).listing =
      (sortByPlace (·.location) found).map fun a => (a.location, .ofTrace a.trace) := by
  have hgroups := groups_ofAlignments found
  rw [map_sortByPlace _ Prod.fst fun _ => rfl]
  refine eq_of_sorted_of_filter_eq (fun _ _ => Location.AtOrBefore.antisymm) (pairwise_listing _)
    (pairwise_sortByPlace Prod.fst _) fun loc => ?_
  rw [filter_listing, hgroups.entriesAt_eq, filter_sortByPlace, List.filter_map, groupAt,
    List.map_map]
  refine List.map_congr_left fun a ha => ?_
  have hplace : a.location = loc := by simpa using (List.mem_filter.1 ha).2
  rw [Function.comp_apply, hplace]

end Annotations

/-- Annotating a tree never fails, and it sorts the alignment of the tree by place. Listed
place by place, the annotations are the aligned traces in the stable order of their lines and
columns, each with the last of its types, or `Any` if it has none. The places increase and
none is empty. At every place stands what was aligned with exactly that place, in the order of
the walk. -/
theorem Aligner.annotate_regroups (a : Aligner) (n : Node) :
    ∃ (found : List Alignment) (m : Annotations),
      a.align n = .ok found ∧ a.annotate n = .ok m ∧
      m.listing = (sortByPlace (·.location) found).map
        (fun r => (r.location, ⟨r.trace, r.trace.types.getLast?.getD .any⟩)) ∧
      (m.toList.Pairwise fun e e' => e.1.Before e'.1) ∧ (∀ e ∈ m.toList, e.2 ≠ []) ∧
      ∀ line col, m.entriesAt ⟨line, col⟩ = (found.filter (·.location = ⟨line, col⟩)).map
        fun r => ⟨r.trace, r.trace.types.getLast?.getD .any⟩ := by
  have htype (t : Trace) : t.types.getLast?.getD .any = t.resultType :=
    (List.getLastD_eq_getLast? ..).symm
  have hgroups := Annotations.groups_ofAlignments (a.run n).found
  refine ⟨(a.run n).found, .ofAlignments (a.run n).found, a.align_eq_found n, ?_, ?_,
    Annotations.pairwise_toList _, hgroups.ne_nil, fun line col => ?_⟩
  · rw [annotate, align_eq_found]
    rfl
  · simp only [htype]
    exact Annotations.listing_ofAlignments _
  · simp only [htype]
    exact hgroups.entriesAt_eq ⟨line, col⟩

end TypeTrace

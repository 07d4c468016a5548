import TypeTrace.Text.Search

/-!
# Scans of a text

Searches in a text look at its rests one after the other, the longest one first, and answer
from the first rest that fits. They differ in what they look for on a rest, so they are all
instances of one scan.

Main results:

* `firstHit?_eq_some`, `firstHit?_eq_none`: what a scan finds;
* `offset?_eq_some`, `offset?_eq_none`: the search for a part of a text finds the first one.
-/

namespace TypeTrace.Text

/-! ## The first rest that fits -/

/-- The place that a search gives on the first rest of a text on which it succeeds, counted
from the start of the text. -/
def firstHit? (hit? : List Char → Option Nat) : List Char → Option Nat
  | [] => hit? []
  | c :: cs =>
    match hit? (c :: cs) with
    | some n => some n
    | none => (firstHit? hit? cs).map (c.utf8Size + ·)

variable {hit? : List Char → Option Nat}

/-- A scan that succeeds does so on some rest of the text, and on no longer one: every cut of the
text before a rest that fits lies behind the cut it was found at. -/
theorem firstHit?_eq_some {text : List Char} {q : Nat} (h : firstHit? hit? text = some q) :
    ∃ before rest n, text = before ++ rest ∧ hit? rest = some n ∧ q = byteLength before + n ∧
      ∀ before' rest', text = before' ++ rest' → hit? rest' ≠ none → before <+: before' := by
  induction text generalizing q with
  | nil => exact ⟨[], [], q, rfl, h, (Nat.zero_add q).symm, fun _ _ _ _ => List.nil_prefix⟩
  | cons c cs ih =>
      rw [firstHit?] at h
      cases hhead : hit? (c :: cs) with
      | some n =>
          rw [hhead] at h
          rcases Option.some.inj h with rfl
          exact ⟨[], c :: cs, n, rfl, hhead, (Nat.zero_add n).symm,
            fun _ _ _ _ => List.nil_prefix⟩
      | none =>
          rw [hhead] at h
          rcases Option.map_eq_some_iff.1 h with ⟨m, hm, rfl⟩
          rcases ih hm with ⟨before, rest, n, rfl, hn, rfl, hfirst⟩
          refine ⟨c :: before, rest, n, rfl, hn, (Nat.add_assoc _ _ _).symm, ?_⟩
          intro before' rest' hcut hhit
          cases before' with
          | nil =>
              rcases hcut with rfl
              exact absurd hhead hhit
          | cons d before' =>
              rcases List.cons.inj hcut with ⟨rfl, htail⟩
              exact List.cons_prefix_cons.2 ⟨rfl, hfirst before' rest' htail hhit⟩

/-- A scan that fails does so on every rest of the text. -/
theorem firstHit?_eq_none {text : List Char} (h : firstHit? hit? text = none)
    {before rest : List Char} (hcut : text = before ++ rest) : hit? rest = none := by
  induction text generalizing before with
  | nil =>
      rcases List.append_eq_nil_iff.1 hcut.symm with ⟨-, rfl⟩
      exact h
  | cons c cs ih =>
      rw [firstHit?] at h
      cases hhead : hit? (c :: cs) with
      | some n =>
          rw [hhead] at h
          exact nomatch h
      | none =>
          rw [hhead] at h
          cases before with
          | nil =>
              rcases hcut with rfl
              exact hhead
          | cons d before => exact ih (Option.map_eq_none_iff.1 h) (List.cons.inj hcut).2

/-! ## Parts of a text -/

/-- The place of `part` in a text that begins with it. -/
def partOffset? (part rest : List Char) : Option Nat :=
  if part.isPrefixOf rest then some 0 else none

/-- A part is found where a text begins with it. -/
theorem partOffset?_append (part after : List Char) : partOffset? part (part ++ after) = some 0 :=
  if_pos (List.isPrefixOf_iff_prefix.2 (List.prefix_append part after))

/-- The search for a part of a text is a scan. -/
theorem offset?_eq_firstHit? (part text : List Char) :
    offset? part text = firstHit? (partOffset? part) text := by
  induction text with
  | nil => cases part <;> rfl
  | cons c cs ih =>
      rw [offset?, firstHit?, partOffset?, ih]
      by_cases h : part.isPrefixOf (c :: cs) = true
      · rw [if_pos h, if_pos h]
      · rw [if_neg h, if_neg h]

/-- The place that is found for a part is one where it stands, counted in bytes, and it stands at
no earlier one. -/
theorem offset?_eq_some {part text : List Char} {n : Nat} (h : offset? part text = some n) :
    (∃ before after, text = before ++ (part ++ after) ∧ byteLength before = n) ∧
      ∀ before after, text = before ++ (part ++ after) → n ≤ byteLength before := by
  rw [offset?_eq_firstHit?] at h
  rcases firstHit?_eq_some h with ⟨before, rest, m, hcut, hm, rfl, hearliest⟩
  by_cases hprefix : part.isPrefixOf rest = true
  · rw [partOffset?, if_pos hprefix] at hm
    rcases Option.some.inj hm with rfl
    rcases List.isPrefixOf_iff_prefix.1 hprefix with ⟨after, rfl⟩
    refine ⟨⟨before, after, hcut, rfl⟩, fun before' after' hcut' => ?_⟩
    have hhit : partOffset? part (part ++ after') ≠ none := by
      rw [partOffset?_append]
      exact Option.some_ne_none 0
    rcases hearliest before' _ hcut' hhit with ⟨between, rfl⟩
    rw [byteLength_append]
    exact Nat.le_add_right _ _
  · rw [partOffset?, if_neg hprefix] at hm
    exact nomatch hm

/-- A part that is not found stands nowhere in the text. -/
theorem offset?_eq_none {part text : List Char} (h : offset? part text = none)
    (before after : List Char) : text ≠ before ++ (part ++ after) := by
  rintro rfl
  have hpart : part <:+: before ++ (part ++ after) := ⟨before, after, List.append_assoc _ _ _⟩
  rw [offset?_eq_none_iff, occurs_iff.2 hpart] at h
  exact nomatch h

end TypeTrace.Text

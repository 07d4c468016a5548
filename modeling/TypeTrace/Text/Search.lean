/-!
# Search in a text

Occurrences of one text in another, with places counted in the bytes of UTF-8.

Main statements:

* `exists_append_of_byteLength_le`, `dropBytes?_eq_some_iff`: where bytes cut a text;
* `occurs_iff`: `occurs` decides whether one text is a part of another;
* `offset?_eq_none_iff`: a search fails exactly when there is no occurrence.
-/

namespace TypeTrace.Text

/-- The length of a text in the bytes of UTF-8. -/
def byteLength : List Char → Nat
  | [] => 0
  | c :: cs => c.utf8Size + byteLength cs

@[simp]
theorem byteLength_nil : byteLength [] = 0 := rfl

@[simp]
theorem byteLength_cons (c : Char) (cs : List Char) :
    byteLength (c :: cs) = c.utf8Size + byteLength cs := rfl

/-- Texts in a row have the bytes of both. -/
@[simp]
theorem byteLength_append (l r : List Char) :
    byteLength (l ++ r) = byteLength l + byteLength r := by
  induction l with
  | nil => simp
  | cons c l ih => simp [ih, Nat.add_assoc]

/-- The text from a byte offset on; none past the end or inside a character. -/
def dropBytes? : Nat → List Char → Option (List Char)
  | 0, cs => some cs
  | _ + 1, [] => none
  | n + 1, c :: cs => if c.utf8Size ≤ n + 1 then dropBytes? (n + 1 - c.utf8Size) cs else none

/-- Every character has a byte at least. -/
theorem byteLength_eq_zero_iff {cs : List Char} : byteLength cs = 0 ↔ cs = [] := by
  cases cs with
  | nil => simp
  | cons c cs =>
    have := c.utf8Size_pos
    simp only [byteLength_cons, reduceCtorEq, iff_false]
    omega

/-- Of two cuts through a text, the one that leaves fewer bytes before it is the earlier. -/
theorem exists_append_of_byteLength_le {l r l' r' : List Char} (h : l ++ r = l' ++ r')
    (hle : byteLength l ≤ byteLength l') : ∃ between, l' = l ++ between ∧ r = between ++ r' := by
  rcases List.append_eq_append_iff.1 h with hlater | ⟨between, rfl, rfl⟩
  · exact hlater
  · have hnil : between = [] := by
      rw [byteLength_append] at hle
      exact byteLength_eq_zero_iff.1 (by omega)
    subst hnil
    exact ⟨[], by simp, rfl⟩

/-- Behind the bytes of a first text stands the rest. -/
theorem dropBytes?_byteLength_append (before rest : List Char) :
    dropBytes? (byteLength before) (before ++ rest) = some rest := by
  induction before with
  | nil => cases rest <;> rfl
  | cons c before ih =>
    have hpos := c.utf8Size_pos
    obtain ⟨n, hn⟩ : ∃ n, byteLength (c :: before) = n + 1 :=
      ⟨byteLength (c :: before) - 1, by rw [byteLength_cons]; omega⟩
    rw [byteLength_cons] at hn
    rw [List.cons_append, byteLength_cons, hn, dropBytes?, if_pos (by omega), ← hn,
      Nat.add_sub_cancel_left, ih]

/-- A number of bytes can be dropped if it is the length of a text in front. -/
theorem dropBytes?_eq_some_iff {n : Nat} {text rest : List Char} :
    dropBytes? n text = some rest ↔ ∃ before, text = before ++ rest ∧ byteLength before = n := by
  constructor
  · intro h
    induction text generalizing n with
    | nil =>
      cases n with
      | zero => exact ⟨[], Option.some.inj h, rfl⟩
      | succ n => exact nomatch h
    | cons c cs ih =>
      cases n with
      | zero => exact ⟨[], Option.some.inj h, rfl⟩
      | succ n =>
        rw [dropBytes?] at h
        by_cases hsize : c.utf8Size ≤ n + 1
        · rw [if_pos hsize] at h
          obtain ⟨before, rfl, hbefore⟩ := ih h
          exact ⟨c :: before, rfl, by rw [byteLength_cons]; omega⟩
        · rw [if_neg hsize] at h
          exact nomatch h
  · rintro ⟨before, rfl, rfl⟩
    exact dropBytes?_byteLength_append before rest

/-- Does `part` stand somewhere in the text? -/
def occurs (part : List Char) : List Char → Bool
  | [] => part.isEmpty
  | c :: cs => part.isPrefixOf (c :: cs) || occurs part cs

/-- The byte offset of the first occurrence of `part`. -/
def offset? (part : List Char) : List Char → Option Nat
  | [] => if part.isEmpty then some 0 else none
  | c :: cs =>
    if part.isPrefixOf (c :: cs) then some 0
    else (offset? part cs).map (c.utf8Size + ·)

/-- A part occurs in a text exactly if it is an infix of it. -/
theorem occurs_iff {part text : List Char} : occurs part text = true ↔ part <:+: text := by
  induction text with
  | nil => simp [occurs]
  | cons c cs ih => simp [occurs, ih, List.infix_cons_iff]

/-- The search fails exactly if the part does not occur. -/
theorem offset?_eq_none_iff {part text : List Char} :
    offset? part text = none ↔ occurs part text = false := by
  induction text with
  | nil => simp [offset?, occurs]
  | cons c cs ih =>
    by_cases h : part.isPrefixOf (c :: cs) = true
    · simp [offset?, occurs, h]
    · simp [offset?, occurs, h, ih]

end TypeTrace.Text

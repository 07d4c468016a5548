import TypeTrace.Proofs.TextScan
import TypeTrace.Trace.Columns

/-!
# Places of attributes

An attribute is placed where its name stands on the line of its node, behind a dot and white
space. The name has to end with a word there, so a longer name that begins like it is passed
over. What is found is the first such place from the column of the node on.

Main results:

* `wordOffset?_eq_some_iff`, `isAccess_iff`: how an access to an attribute is recognised;
* `attributeOffset?_eq_some`, `attributeOffset?_eq_none_iff`: the rest of a line is searched for
  the first access;
* `attributeLocation_firstAccess`: where an attribute is placed.
-/

namespace TypeTrace

namespace Text

/-! ## Accesses -/

/-- The place of a name in a text that begins with an access to the attribute of that name. -/
def accessOffset? (name : List Char) : List Char → Option Nat
  | [] => none
  | c :: cs => if c = '.' then (wordOffset? name c cs).map (1 + ·) else none

theorem attributeOffset?_eq_firstHit? (name text : List Char) :
    attributeOffset? name text = firstHit? (accessOffset? name) text := by
  induction text with
  | nil => rfl
  | cons c cs ih =>
      rw [attributeOffset?, firstHit?, accessOffset?, ih]
      by_cases hdot : c = '.'
      · subst hdot
        cases wordOffset? name '.' cs <;> rfl
      · rw [if_neg hdot, if_neg (by simpa using hdot)]

/-- A text begins with any white space and then with a name behind which is a word boundary.
The name stands at byte offset `n`. -/
def WordBehindBlanks (name text : List Char) (n : Nat) : Prop :=
  ∃ blanks after, text = blanks ++ (name ++ after) ∧ (∀ c ∈ blanks, isBlank c = true) ∧
    isWordBoundary name.getLast? after.head? = true ∧ byteLength blanks = n

/-- An attribute is accessed in a text: at byte offset `p` is a dot, and behind it and any
white space the name, at `q`. -/
def IsAccess (name text : List Char) (p q : Nat) : Prop :=
  ∃ before rest n, text = before ++ '.' :: rest ∧ WordBehindBlanks name rest n ∧
    byteLength before = p ∧ p + 1 + n = q

section Names

variable {first : Char} {others : List Char}

theorem startsWord_iff {before : Char} {text : List Char} :
    startsWord (first :: others) before text = true ↔
      ∃ after, text = first :: others ++ after ∧
        isWordBoundary (first :: others).getLast? after.head? = true := by
  have hlast : some ((first :: others).getLastD before) = (first :: others).getLast? := by
    rw [List.getLastD_cons, List.getLast?_cons, List.getLastD_eq_getLast?]
  unfold startsWord
  rw [Bool.and_eq_true, List.isPrefixOf_iff_prefix, hlast]
  constructor
  · rintro ⟨⟨after, rfl⟩, hend⟩
    rw [List.drop_left] at hend
    exact ⟨after, rfl, hend⟩
  · rintro ⟨after, rfl, hend⟩
    rw [List.drop_left]
    exact ⟨List.prefix_append _ _, hend⟩

/-- A text that does not begin with white space has to begin with the name. -/
theorem wordBehindBlanks_iff_startsWord (before : Char) {text : List Char} {n : Nat}
    (htext : ∀ c, text.head? = some c → isBlank c = false) :
    WordBehindBlanks (first :: others) text n ↔
      startsWord (first :: others) before text = true ∧ 0 = n := by
  rw [startsWord_iff]
  constructor
  · rintro ⟨blanks, after, rfl, hblanks, hend, rfl⟩
    cases blanks with
    | nil => exact ⟨⟨after, rfl, hend⟩, rfl⟩
    | cons c blanks =>
        have hblank := hblanks c List.mem_cons_self
        rw [htext c rfl] at hblank
        exact absurd hblank Bool.false_ne_true
  · rintro ⟨⟨after, rfl, hend⟩, rfl⟩
    exact ⟨[], after, rfl, by simp, hend, rfl⟩

/-- White space is never the beginning of a name that does not begin with white space. -/
theorem wordBehindBlanks_cons (hfirst : isBlank first = false) {c : Char} {cs : List Char}
    {n : Nat} (hblank : isBlank c = true) :
    WordBehindBlanks (first :: others) (c :: cs) n ↔
      ∃ m, WordBehindBlanks (first :: others) cs m ∧ c.utf8Size + m = n := by
  constructor
  · rintro ⟨blanks, after, hcut, hblanks, hend, rfl⟩
    cases blanks with
    | nil =>
        rcases List.cons.inj hcut with ⟨rfl, -⟩
        rw [hfirst] at hblank
        exact absurd hblank Bool.false_ne_true
    | cons d blanks =>
        rcases List.cons.inj hcut with ⟨rfl, htail⟩
        exact ⟨_, ⟨blanks, after, htail, (List.forall_mem_cons.1 hblanks).2, hend, rfl⟩, rfl⟩
  · rintro ⟨m, ⟨blanks, after, rfl, hblanks, hend, rfl⟩, rfl⟩
    exact ⟨c :: blanks, after, rfl, List.forall_mem_cons.2 ⟨hblank, hblanks⟩, hend, rfl⟩

-- The next two equations are proved from the recursor. The ones that are generated for the
-- definition are out of reach, since looking for them evaluates `isBlank` on a variable.
theorem wordOffset?_nil (name : List Char) (before : Char) :
    wordOffset? name before [] = if startsWord name before [] then some 0 else none := rfl

theorem wordOffset?_cons (name : List Char) (before c : Char) (cs : List Char) :
    wordOffset? name before (c :: cs) =
      match if isBlank c then wordOffset? name c cs else none with
      | some n => some (c.utf8Size + n)
      | none => if startsWord name before (c :: cs) then some 0 else none := by
  delta wordOffset?
  exact rfl

theorem wordOffset?_cons_of_blank (hfirst : isBlank first = false) (before : Char) {c : Char}
    (cs : List Char) (hblank : isBlank c = true) :
    wordOffset? (first :: others) before (c :: cs) =
      (wordOffset? (first :: others) c cs).map (c.utf8Size + ·) := by
  have hno : ¬startsWord (first :: others) before (c :: cs) = true := by
    rw [startsWord_iff]
    rintro ⟨after, hcut, -⟩
    rw [(List.cons.inj hcut).1, hfirst] at hblank
    exact Bool.false_ne_true hblank
  rw [wordOffset?_cons, if_pos hblank, if_neg hno]
  cases wordOffset? (first :: others) c cs <;> rfl

theorem wordOffset?_eq_some_iff (hfirst : isBlank first = false) {before : Char}
    {text : List Char} {n : Nat} :
    wordOffset? (first :: others) before text = some n ↔
      WordBehindBlanks (first :: others) text n := by
  induction text generalizing before n with
  | nil =>
      rw [wordOffset?_nil, wordBehindBlanks_iff_startsWord before (by simp),
        Option.ite_none_right_eq_some, Option.some_inj]
  | cons c cs ih =>
      by_cases hblank : isBlank c = true
      · rw [wordOffset?_cons_of_blank hfirst before cs hblank, wordBehindBlanks_cons hfirst hblank,
          Option.map_eq_some_iff]
        exact exists_congr fun m => and_congr_left' ih
      · have hhead : ∀ d, (c :: cs).head? = some d → isBlank d = false := fun d hd =>
          Option.some.inj hd ▸ Bool.eq_false_iff.2 hblank
        rw [wordOffset?_cons, if_neg hblank, wordBehindBlanks_iff_startsWord before hhead]
        exact Option.ite_none_right_eq_some.trans (and_congr_right' Option.some_inj)

theorem accessOffset?_eq_some_iff (hfirst : isBlank first = false) {rest : List Char} {n : Nat} :
    accessOffset? (first :: others) rest = some n ↔
      ∃ cs m, rest = '.' :: cs ∧ WordBehindBlanks (first :: others) cs m ∧ 1 + m = n := by
  cases rest with
  | nil => simp [accessOffset?]
  | cons c cs =>
      rw [accessOffset?]
      by_cases hdot : c = '.'
      · subst hdot
        rw [if_pos rfl, Option.map_eq_some_iff]
        constructor
        · rintro ⟨m, hm, rfl⟩
          exact ⟨cs, m, rfl, (wordOffset?_eq_some_iff hfirst).1 hm, rfl⟩
        · rintro ⟨_, m, ⟨⟩, hword, rfl⟩
          exact ⟨m, (wordOffset?_eq_some_iff hfirst).2 hword, rfl⟩
      · rw [if_neg hdot]
        constructor
        · intro h
          exact nomatch h
        · rintro ⟨_, _, hcut, -⟩
          exact absurd (List.cons.inj hcut).1 hdot

/-- Accesses are found at the rests of a text. -/
theorem isAccess_iff (hfirst : isBlank first = false) {text : List Char} {p q : Nat} :
    IsAccess (first :: others) text p q ↔
      ∃ before rest n, text = before ++ rest ∧ accessOffset? (first :: others) rest = some n ∧
        byteLength before = p ∧ p + n = q := by
  constructor
  · rintro ⟨before, rest, n, hcut, hword, hp, rfl⟩
    have hoffset := (accessOffset?_eq_some_iff hfirst).2 ⟨rest, n, rfl, hword, rfl⟩
    exact ⟨before, _, 1 + n, hcut, hoffset, hp, (Nat.add_assoc p 1 n).symm⟩
  · rintro ⟨before, rest, n, rfl, hoffset, hp, rfl⟩
    rcases (accessOffset?_eq_some_iff hfirst).1 hoffset with ⟨cs, m, rfl, hword, rfl⟩
    exact ⟨before, cs, m, rfl, hword, hp, Nat.add_assoc p 1 m⟩

end Names

/-- The first access to an attribute from a byte offset on. Every other access there has its
dot further on. -/
structure IsFirstAccess (name text : List Char) (start p q : Nat) : Prop where
  access : IsAccess name text p q
  start_le : start ≤ p
  others : ∀ p' q', IsAccess name text p' q' → start ≤ p' → (p' = p ∧ q' = q) ∨ p < p'

section Names

variable {first : Char} {others : List Char}

/-- What is found on the rest of a line is the first access behind its front. -/
theorem attributeOffset?_eq_some (hfirst : isBlank first = false) (front : List Char)
    {text : List Char} {n : Nat} (h : attributeOffset? (first :: others) text = some n) :
    ∃ p, IsFirstAccess (first :: others) (front ++ text) (byteLength front) p
      (byteLength front + n) := by
  rw [attributeOffset?_eq_firstHit?] at h
  rcases firstHit?_eq_some h with ⟨before, rest, m, rfl, hm, rfl, hearliest⟩
  refine ⟨byteLength (front ++ before), ?_, ?_, ?_⟩
  · rw [isAccess_iff hfirst]
    refine ⟨front ++ before, rest, m, (List.append_assoc _ _ _).symm, hm, rfl, ?_⟩
    rw [byteLength_append, Nat.add_assoc]
  · rw [byteLength_append]
    exact Nat.le_add_right _ _
  · intro p' q' haccess hle
    rcases (isAccess_iff hfirst).1 haccess with ⟨before', rest', m', hcut, hm', rfl, rfl⟩
    rcases exists_append_of_byteLength_le hcut hle with ⟨between, rfl, hrest⟩
    have hhit : accessOffset? (first :: others) rest' ≠ none := by
      rw [hm']
      exact Option.some_ne_none m'
    rcases hearliest between rest' hrest hhit with ⟨more, rfl⟩
    rw [List.append_assoc] at hrest
    have hmore := List.append_cancel_left hrest
    by_cases hnil : more = []
    · subst hnil
      rw [List.nil_append] at hmore
      subst hmore
      rw [List.append_nil, Option.some.inj (hm'.symm.trans hm)]
      exact .inl ⟨rfl, by rw [byteLength_append, Nat.add_assoc]⟩
    · have hpos := Nat.pos_of_ne_zero (mt byteLength_eq_zero_iff.1 hnil)
      simp only [byteLength_append]
      exact .inr (by omega)

/-- Nothing is found on the rest of a line if all accesses are in its front. -/
theorem attributeOffset?_eq_none_iff (hfirst : isBlank first = false) (front : List Char)
    {text : List Char} :
    attributeOffset? (first :: others) text = none ↔
      ∀ p q, IsAccess (first :: others) (front ++ text) p q → p < byteLength front := by
  constructor
  · intro h p q haccess
    rw [attributeOffset?_eq_firstHit?] at h
    rcases (isAccess_iff hfirst).1 haccess with ⟨before, rest, n, hcut, hn, rfl, -⟩
    refine Nat.lt_of_not_le fun hle => ?_
    rcases exists_append_of_byteLength_le hcut hle with ⟨between, -, hrest⟩
    rw [firstHit?_eq_none h hrest] at hn
    exact nomatch hn
  · intro hfront
    cases hoffset : attributeOffset? (first :: others) text with
    | none => rfl
    | some n =>
        rcases attributeOffset?_eq_some hfirst front hoffset with ⟨p, hp⟩
        exact absurd (hfront p _ hp.access) (Nat.not_lt_of_le hp.start_le)

end Names

/-- A name that is accessed stands on the line. -/
theorem IsAccess.place_le {name text : List Char} {p q : Nat} (h : IsAccess name text p q) :
    q ≤ byteLength text := by
  rcases h with ⟨before, rest, n, rfl, ⟨blanks, after, rfl, -, -, rfl⟩, rfl, rfl⟩
  have hdot : '.'.utf8Size = 1 := rfl
  simp only [byteLength_append, byteLength_cons, hdot]
  omega

/-! ## Places on a line -/

/-- A character of a text begins at a byte offset, or the text ends there. -/
def IsCharBoundary (n : Nat) (text : List Char) : Prop :=
  ∃ before rest, text = before ++ rest ∧ byteLength before = n

theorem isCharBoundary_iff {n : Nat} {text : List Char} :
    IsCharBoundary n text ↔ (dropBytes? n text).isSome = true := by
  rw [Option.isSome_iff_exists]
  constructor
  · rintro ⟨before, rest, hcut⟩
    exact ⟨rest, dropBytes?_eq_some_iff.2 ⟨before, hcut⟩⟩
  · rintro ⟨rest, h⟩
    rcases dropBytes?_eq_some_iff.1 h with ⟨before, hcut⟩
    exact ⟨before, rest, hcut⟩

instance (n : Nat) (text : List Char) : Decidable (IsCharBoundary n text) :=
  decidable_of_iff _ isCharBoundary_iff.symm

end Text

namespace Store

open Text

theorem attributeLocation_of_some {s : Store} {loc : Location} {name text : String}
    {rest : List Char} {n : Nat} (hline : s.line? loc.line = some text)
    (hrest : dropBytes? loc.col.toNat text.toList = some rest)
    (h : attributeOffset? name.toList rest = some n) :
    s.attributeLocation name loc = { loc with col := .ofNat (loc.col.toNat + n) } := by
  have hoffset : (do
      let text ← s.line? loc.line
      let rest ← dropBytes? loc.col.toNat text.toList
      attributeOffset? name.toList rest) = some n := by
    rw [hline, Option.bind_eq_bind, Option.bind_some, hrest, Option.bind_eq_bind,
      Option.bind_some, h]
  unfold attributeLocation
  rw [hoffset]

theorem attributeLocation_eq_self {s : Store} {loc : Location} {name : String}
    (h : ∀ text rest, s.line? loc.line = some text →
      dropBytes? loc.col.toNat text.toList = some rest → attributeOffset? name.toList rest = none) :
    s.attributeLocation name loc = loc := by
  have hoffset : (do
      let text ← s.line? loc.line
      let rest ← dropBytes? loc.col.toNat text.toList
      attributeOffset? name.toList rest) = none := by
    simp only [Option.bind_eq_bind, Option.bind_eq_none_iff]
    intro text hline rest hrest
    exact h text rest hline hrest
  unfold attributeLocation
  rw [hoffset]

/-- What is found behind the column of a node is the place of the first access, and the
column of that place is in range if the line is short enough. -/
theorem attributeLocation_of_offset {s : Store} {loc : Location} {name text : String}
    {first : Char} {others before rest : List Char} {n : Nat}
    (hname : name.toList = first :: others) (hfirst : isBlank first = false)
    (hline : s.line? loc.line = some text) (hlength : byteLength text.toList < UInt32.size)
    (hcut : text.toList = before ++ rest) (hbefore : byteLength before = loc.col.toNat)
    (h : attributeOffset? name.toList rest = some n) :
    ∃ p q, IsFirstAccess name.toList text.toList loc.col.toNat p q ∧
      (s.attributeLocation name loc).line = loc.line ∧
      (s.attributeLocation name loc).col.toNat = q := by
  have hrest : dropBytes? loc.col.toNat text.toList = some rest :=
    dropBytes?_eq_some_iff.2 ⟨before, hcut, hbefore⟩
  rw [attributeLocation_of_some hline hrest h]
  rw [hname] at h ⊢
  rcases attributeOffset?_eq_some hfirst before h with ⟨p, hp⟩
  rw [← hcut, hbefore] at hp
  exact ⟨p, _, hp, rfl,
    UInt32.toNat_ofNat_of_lt' (Nat.lt_of_le_of_lt hp.access.place_le hlength)⟩

/-- A line on which `bc` is read before `b`, which stands behind a wide blank and a space. -/
def wideAccess : String := "w = a.bc.\u3000 b + a.b"

end Store

end TypeTrace

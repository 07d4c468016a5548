import TypeTrace.Proofs.TextScan
import TypeTrace.Trace.Columns

/-!
# Places of imported names

An imported name is looked for behind the spaces of its line and then behind the commas. It
does not have to end with a word, so what is found may be the beginning of a longer name. Of
two names that share a place one is the beginning of the other.

Main results:

* `isImportPlace_of_eq_some`: the search finds the first place behind a space or else a comma;
* `StandsBehind.isWholeWord_or`, `StandsBehind.comparable`: what stands there;
* `importColumn?_eq_place`: the column of an imported name.
-/

namespace TypeTrace

namespace Text

/-- A name stands at a byte offset of a text, right behind a separator. -/
def StandsBehind (sep : Char) (name text : List Char) (n : Nat) : Prop :=
  ∃ before after, text = before ++ (sep :: name ++ after) ∧ n = byteLength before + sep.utf8Size

/-- No place of a name behind a separator comes before `n`. -/
def IsFirstBehind (sep : Char) (name text : List Char) (n : Nat) : Prop :=
  StandsBehind sep name text n ∧ ∀ m, StandsBehind sep name text m → n ≤ m

/-- What the search for a separator and a name finds is the first place of the name behind it. -/
theorem isFirstBehind_of_offset? {sep : Char} {name text : List Char} {m : Nat}
    (h : offset? (sep :: name) text = some m) :
    IsFirstBehind sep name text (m + sep.utf8Size) := by
  rcases offset?_eq_some h with ⟨⟨before, after, hcut, rfl⟩, hfirst⟩
  refine ⟨⟨before, after, hcut, rfl⟩, ?_⟩
  rintro n ⟨before', after', hcut', rfl⟩
  exact Nat.add_le_add_right (hfirst before' after' hcut') _

/-- If the search fails the name stands behind the separator nowhere. -/
theorem not_standsBehind_of_offset? {sep : Char} {name text : List Char}
    (h : offset? (sep :: name) text = none) (n : Nat) : ¬StandsBehind sep name text n := by
  rintro ⟨before, after, hcut, -⟩
  exact offset?_eq_none h before after hcut

/-- The place at which an imported name is found: the first one behind a space, or the first
one behind a comma if the name stands behind no space. -/
def IsImportPlace (name text : List Char) (n : Nat) : Prop :=
  IsFirstBehind ' ' name text n ∨
    (∀ m, ¬StandsBehind ' ' name text m) ∧ IsFirstBehind ',' name text n

theorem isImportPlace_of_eq_some {name text : List Char} {m : Nat}
    (h : (offset? (' ' :: name) text <|> offset? (',' :: name) text) = some m) :
    IsImportPlace name text (m + 1) := by
  cases hspace : offset? (' ' :: name) text with
  | some k =>
      rw [hspace] at h
      rcases Option.some.inj h with rfl
      exact .inl (isFirstBehind_of_offset? hspace)
  | none =>
      rw [hspace] at h
      exact .inr ⟨not_standsBehind_of_offset? hspace, isFirstBehind_of_offset? h⟩

theorem not_standsBehind_of_eq_none {name text : List Char}
    (h : (offset? (' ' :: name) text <|> offset? (',' :: name) text) = none) (n : Nat) :
    ¬StandsBehind ' ' name text n ∧ ¬StandsBehind ',' name text n := by
  rw [Option.orElse_eq_orElse, Option.orElse_eq_or, Option.or_eq_none_iff] at h
  exact ⟨not_standsBehind_of_offset? h.1 n, not_standsBehind_of_offset? h.2 n⟩

/-- A name stands at a byte offset as a whole word. -/
def IsWholeWord (name text : List Char) (n : Nat) : Prop :=
  ∃ before after, text = before ++ (name ++ after) ∧ byteLength before = n ∧
    before.getLast?.any isWord = false ∧ after.head?.any isWord = false

/-- A name stands at a byte offset and a word goes on behind it. -/
def BeginsLongerWord (name text : List Char) (n : Nat) : Prop :=
  ∃ before c after, text = before ++ (name ++ c :: after) ∧ byteLength before = n ∧
    isWord c = true

/-- A name behind a separator is a whole word, or a longer word begins with it. -/
theorem StandsBehind.isWholeWord_or {sep : Char} {name text : List Char} {n : Nat}
    (h : StandsBehind sep name text n) (hsep : isWord sep = false) :
    IsWholeWord name text n ∨ BeginsLongerWord name text n := by
  rcases h with ⟨before, after, rfl, rfl⟩
  have hcut (after : List Char) : before ++ (sep :: name ++ after) =
      before ++ [sep] ++ (name ++ after) := by simp
  have hoffset : byteLength (before ++ [sep]) = byteLength before + sep.utf8Size := by simp
  have hbehind : (before ++ [sep]).getLast?.any isWord = false := by simp [hsep]
  cases after with
  | nil => exact .inl ⟨before ++ [sep], [], hcut [], hoffset, hbehind, rfl⟩
  | cons c after =>
      cases hc : isWord c with
      | true => exact .inr ⟨before ++ [sep], c, after, hcut (c :: after), hoffset, hc⟩
      | false => exact .inl ⟨before ++ [sep], c :: after, hcut (c :: after), hoffset, hbehind, hc⟩

theorem StandsBehind.dropBytes? {sep : Char} {name text : List Char} {n : Nat}
    (h : StandsBehind sep name text n) : ∃ after, dropBytes? n text = some (name ++ after) := by
  rcases h with ⟨before, after, rfl, rfl⟩
  exact ⟨after, dropBytes?_eq_some_iff.2 ⟨before ++ [sep], by simp, by simp⟩⟩

/-- A name stands within its text. -/
theorem StandsBehind.place_le {sep : Char} {name text : List Char} {n : Nat}
    (h : StandsBehind sep name text n) : n ≤ byteLength text := by
  rcases h with ⟨before, after, rfl, rfl⟩
  simp only [byteLength_append, byteLength_cons]
  omega

/-- Of two names at one place one is the beginning of the other. -/
theorem StandsBehind.comparable {sep sep' : Char} {name name' text : List Char} {n : Nat}
    (h : StandsBehind sep name text n) (h' : StandsBehind sep' name' text n) :
    name <+: name' ∨ name' <+: name := by
  rcases h.dropBytes? with ⟨after, hafter⟩
  rcases h'.dropBytes? with ⟨after', hafter'⟩
  have hsame : name ++ after = name' ++ after' := Option.some.inj (hafter.symm.trans hafter')
  exact List.prefix_or_prefix_of_prefix ⟨after, rfl⟩ ⟨after', hsame.symm⟩

/-- The place of an imported name is behind one of the two separators. -/
theorem IsImportPlace.standsBehind {name text : List Char} {n : Nat}
    (h : IsImportPlace name text n) :
    ∃ sep, isWord sep = false ∧ StandsBehind sep name text n := by
  rcases h with h | ⟨-, h⟩
  · exact ⟨' ', by decide, h.1⟩
  · exact ⟨',', by decide, h.1⟩

end Text

namespace Store

open Text

/-- The columns of imported names come from their places on the line. -/
theorem importColumn?_eq_some {s : Store} {line col : UInt32} {text name : String}
    (hline : s.line? line = some text) (h : s.importColumn? line name = some col) :
    ∃ n, col = .ofNat n ∧ IsImportPlace name.toList text.toList n := by
  unfold importColumn? at h
  rw [hline, Option.bind_eq_bind, Option.bind_some, Option.bind_eq_bind,
    Option.bind_eq_some_iff] at h
  rcases h with ⟨m, hm, hcol⟩
  exact ⟨m + 1, (Option.some.inj hcol).symm, isImportPlace_of_eq_some hm⟩

theorem importColumn?_ne_none {s : Store} {line : UInt32} {text name : String} {sep : Char}
    {m : Nat} (hline : s.line? line = some text) (hsep : sep = ' ' ∨ sep = ',')
    (hname : StandsBehind sep name.toList text.toList m) : s.importColumn? line name ≠ none := by
  intro h
  unfold importColumn? at h
  rw [hline, Option.bind_eq_bind, Option.bind_some, Option.bind_eq_bind,
    Option.bind_eq_none_iff] at h
  have hnone : (offset? (' ' :: name.toList) text.toList <|>
      offset? (',' :: name.toList) text.toList) = none :=
    Option.eq_none_iff_forall_ne_some.2 fun hit hhit => nomatch h hit hhit
  have hnot := not_standsBehind_of_eq_none hnone m
  rcases hsep with rfl | rfl
  · exact hnot.1 hname
  · exact hnot.2 hname

/-- An imported name that stands somewhere behind a space or a comma gets the column of the
first such place, counted modulo the range of columns. The places behind spaces come first,
and the name is a whole word there or the beginning of a longer one. Two names get the same
column only if one of them is the beginning of the other. -/
theorem importColumn?_eq_place {s : Store} {line : UInt32} {text name : String} {sep : Char}
    {m : Nat} (hline : s.line? line = some text) (hsep : sep = ' ' ∨ sep = ',')
    (hname : StandsBehind sep name.toList text.toList m) :
    ∃ n, s.importColumn? line name = some (.ofNat n) ∧
      (∀ loc, loc.line = line → s.importLocation name loc = { loc with col := .ofNat n }) ∧
      IsImportPlace name.toList text.toList n ∧
      (IsWholeWord name.toList text.toList n ∨ BeginsLongerWord name.toList text.toList n) ∧
      (byteLength text.toList < UInt32.size → ∀ other : String,
        s.importColumn? line other = s.importColumn? line name →
          other.toList <+: name.toList ∨ name.toList <+: other.toList) := by
  rcases Option.ne_none_iff_exists'.1 (importColumn?_ne_none hline hsep hname) with ⟨col, hcol⟩
  rcases importColumn?_eq_some hline hcol with ⟨n, rfl, hplace⟩
  rcases hplace.standsBehind with ⟨sep, hnoWord, hstands⟩
  refine ⟨n, hcol, ?_, hplace, hstands.isWholeWord_or hnoWord, fun hlength other hother => ?_⟩
  · rintro loc rfl
    unfold importLocation
    rw [hcol]
  · rcases importColumn?_eq_some hline (hother.trans hcol) with ⟨n', hn', hplace'⟩
    rcases hplace'.standsBehind with ⟨sep', -, hstands'⟩
    have hsame : n = n' := by
      have hcols := congrArg UInt32.toNat hn'
      rwa [UInt32.toNat_ofNat_of_lt' (Nat.lt_of_le_of_lt hstands.place_le hlength),
        UInt32.toNat_ofNat_of_lt' (Nat.lt_of_le_of_lt hstands'.place_le hlength)] at hcols
    subst hsame
    exact hstands'.comparable hstands

/-- A line that imports `osx` before `os`, with a space before each, and `sys` without one. -/
def importsLonger : String := "import osx,sys, os"

/-- The column of `os` is that of `osx`, and `sys` is found behind the comma. -/
theorem importColumn?_importsLonger :
    let s := Store.ofText importsLonger
    s.line? 1 = some importsLonger ∧
      StandsBehind ' ' "os".toList importsLonger.toList 16 ∧
      s.importColumn? 1 "os" = some 7 ∧ s.importColumn? 1 "sys" = some 11 ∧
      ∃ n, s.importColumn? 1 "os" = some (.ofNat n) ∧
        IsImportPlace "os".toList importsLonger.toList n := by
  intro s
  have hline : s.line? 1 = some importsLonger := by decide
  have hos : StandsBehind ' ' "os".toList importsLonger.toList 16 :=
    ⟨"import osx,sys,".toList, [], by decide, by decide⟩
  rcases importColumn?_eq_place hline (.inl rfl) hos with ⟨n, hcol, -, hplace, -, -⟩
  exact ⟨hline, hos, by decide, by decide, n, hcol, hplace⟩

/-- Both names are whole words behind a space, but they have one column, at which `os` is no
whole word. -/
theorem importColumn?_beginning :
    let s := Store.ofText importsLonger
    s.line? 1 = some importsLonger ∧
      StandsBehind ' ' "osx".toList importsLonger.toList 7 ∧
      IsWholeWord "osx".toList importsLonger.toList 7 ∧
      StandsBehind ' ' "os".toList importsLonger.toList 16 ∧
      IsWholeWord "os".toList importsLonger.toList 16 ∧
      s.importColumn? 1 "osx" = some 7 ∧ s.importColumn? 1 "os" = some 7 ∧
      ¬IsWholeWord "os".toList importsLonger.toList 7 := by
  refine ⟨by decide, ⟨"import".toList, ",sys, os".toList, by decide, by decide⟩,
    ⟨"import ".toList, ",sys, os".toList, by decide, by decide, by decide, by decide⟩,
    ⟨"import osx,sys,".toList, [], by decide, by decide⟩,
    ⟨"import osx,sys, ".toList, [], by decide, by decide, by decide, by decide⟩,
    by decide, by decide, ?_⟩
  rintro ⟨before, after, hcut, hbefore, -, hafter⟩
  have hrest := dropBytes?_eq_some_iff.2 ⟨before, hcut, hbefore⟩
  have hx : some "osx,sys, os".toList = some ("os".toList ++ after) := by
    rw [← hrest]
    decide
  rcases List.append_cancel_left (show "os".toList ++ "x,sys, os".toList = _ from
    Option.some.inj hx) with rfl
  exact absurd hafter (by decide)

end Store

end TypeTrace

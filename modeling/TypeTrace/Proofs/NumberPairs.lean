import Mathlib.Data.List.TakeWhile
import Mathlib.Data.Nat.Digits.Lemmas
import TypeTrace.Location
import TypeTrace.Settings.Config

/-!
# Pairs of numbers in a text

Locations and versions are written as two numbers with a separator between them. Which texts
are read, and as which numbers, is said here by a grammar: the text is cut at its first
separator, and both parts are rows of digits. Around the numbers of a location white space may
stand, and around a version as a whole.

Main results:

* `Numeral.unsigned?_eq_some_iff`: the numerals that are read, and their values;
* `trim_eq_iff`: what trimming leaves of a text;
* `Location.parse?_eq_some_iff`, `PythonVersion.parse?_eq_some_iff`: the two readers;
* `parse_exactly`: what is accepted, what is refused, and that printed values are read back.
-/

namespace TypeTrace

namespace Text

/-! ## Numerals -/

namespace Numeral

/-- The number of a row of digits by the places of its digits. -/
def placeValue (ds : List Char) : Nat :=
  Nat.ofDigits 10 (ds.reverse.map fun c => c.toNat - '0'.toNat)

/-- A text is an optional plus sign and at least one ASCII digit, and the digits stand for the
number in base ten. -/
def Denotes (cs : List Char) (n : Nat) : Prop :=
  ∃ ds, (cs = ds ∨ cs = '+' :: ds) ∧ ds ≠ [] ∧ (∀ c ∈ ds, c.isDigit = true) ∧ placeValue ds = n

/-- A first digit counts by the number of digits behind it. -/
theorem placeValue_cons (c : Char) (ds : List Char) :
    placeValue (c :: ds) = (c.toNat - '0'.toNat) * 10 ^ ds.length + placeValue ds := by
  unfold placeValue
  rw [List.reverse_cons, List.map_append, Nat.ofDigits_append, List.length_map,
    List.length_reverse, List.map_singleton, Nat.ofDigits_singleton]
  ring

/-- The ASCII digits by their code points. -/
theorem isDigit_iff {c : Char} : c.isDigit = true ↔ 0x30 ≤ c.toNat ∧ c.toNat ≤ 0x39 := by
  rw [Char.isDigit, Bool.and_eq_true, decide_eq_true_eq, decide_eq_true_eq]
  rfl

/-- A character is read as a digit if it is one, and its value is its distance from zero. -/
theorem digit?_eq_some_iff {c : Char} {d : Nat} :
    digit? c = some d ↔ c.isDigit = true ∧ c.toNat - '0'.toNat = d := by
  unfold digit?
  rw [Option.ite_none_right_eq_some, Option.some.injEq, isDigit_iff]
  rfl

/-- Reading on from a value gives a number exactly on a row of digits. What was read before is
moved up by their number, and their own value is added. -/
theorem valueFrom?_eq_some_iff {acc n : Nat} {cs : List Char} :
    valueFrom? acc cs = some n ↔
      (∀ c ∈ cs, c.isDigit = true) ∧ acc * 10 ^ cs.length + placeValue cs = n := by
  induction cs generalizing acc with
  | nil => simp [valueFrom?, placeValue]
  | cons c cs ih =>
      have hvalue : (acc * 10 + (c.toNat - '0'.toNat)) * 10 ^ cs.length + placeValue cs =
          acc * 10 ^ (c :: cs).length + placeValue (c :: cs) := by
        rw [placeValue_cons, List.length_cons]
        ring
      rw [valueFrom?, Option.bind_eq_some_iff, List.forall_mem_cons, ← hvalue]
      constructor
      · rintro ⟨d, hd, hrest⟩
        rcases digit?_eq_some_iff.1 hd with ⟨hc, rfl⟩
        rcases ih.1 hrest with ⟨hcs, hn⟩
        exact ⟨⟨hc, hcs⟩, hn⟩
      · rintro ⟨⟨hc, hcs⟩, hn⟩
        exact ⟨_, digit?_eq_some_iff.2 ⟨hc, rfl⟩, ih.2 ⟨hcs, hn⟩⟩

/-- A number is read off exactly the rows of digits that are not empty. -/
theorem valueOf?_eq_some_iff {cs : List Char} {n : Nat} :
    valueOf? cs = some n ↔ cs ≠ [] ∧ (∀ c ∈ cs, c.isDigit = true) ∧ placeValue cs = n := by
  unfold valueOf?
  rw [Option.ite_none_left_eq_some, List.isEmpty_iff, valueFrom?_eq_some_iff, Nat.zero_mul,
    Nat.zero_add]

/-- Behind a plus sign a numeral has digits only, and no second sign. -/
theorem denotes_plus_cons {ds : List Char} {n : Nat} :
    Denotes ('+' :: ds) n ↔ valueOf? ds = some n := by
  rw [valueOf?_eq_some_iff]
  constructor
  · rintro ⟨ds', rfl | hcons, hne, hall, hn⟩
    · exact absurd (hall '+' List.mem_cons_self) (by decide)
    · rcases List.cons.inj hcons with ⟨-, rfl⟩
      exact ⟨hne, hall, hn⟩
  · exact fun h => ⟨ds, .inr rfl, h⟩

/-- Without a plus sign a numeral is a row of digits. -/
theorem denotes_iff_of_no_plus {cs : List Char} {n : Nat} (h : ∀ ds, cs ≠ '+' :: ds) :
    Denotes cs n ↔ valueOf? cs = some n := by
  rw [valueOf?_eq_some_iff]
  constructor
  · rintro ⟨ds, rfl | hplus, hds⟩
    · exact hds
    · exact absurd hplus (h ds)
  · exact fun hcs => ⟨cs, .inl rfl, hcs⟩

/-- Exactly the numerals of the numbers below the bound are read. -/
theorem unsigned?_eq_some_iff {bound n : Nat} {cs : List Char} :
    unsigned? bound cs = some n ↔ Denotes cs n ∧ n < bound := by
  have hbound (m : Nat) : (if m < bound then some m else none) = some n ↔ m = n ∧ n < bound := by
    rw [Option.ite_none_right_eq_some, Option.some.injEq, and_comm]
    exact and_congr_right fun h => h ▸ Iff.rfl
  unfold unsigned?
  split
  · rename_i ds
    simp only [Option.bind_eq_some_iff, hbound, denotes_plus_cons]
    exact ⟨fun ⟨m, hm, hmn, h⟩ => ⟨hmn ▸ hm, h⟩, fun ⟨hn, h⟩ => ⟨n, hn, rfl, h⟩⟩
  · rename_i hplus
    simp only [Option.bind_eq_some_iff, hbound, denotes_iff_of_no_plus hplus]
    exact ⟨fun ⟨m, hm, hmn, h⟩ => ⟨hmn ▸ hm, h⟩, fun ⟨hn, h⟩ => ⟨n, hn, rfl, h⟩⟩

/-- A numeral is read as a word of a type if the number is a value of that type. -/
theorem map_unsigned?_eq_some_iff {ω : Type} {bound : Nat} {ofNat : Nat → ω} {toNat : ω → Nat}
    (hread : ∀ n < bound, toNat (ofNat n) = n) (hlt : ∀ w, toNat w < bound)
    (hback : ∀ w, ofNat (toNat w) = w) {cs : List Char} {w : ω} :
    (unsigned? bound cs).map ofNat = some w ↔ Denotes cs (toNat w) := by
  rw [Option.map_eq_some_iff]
  simp only [unsigned?_eq_some_iff]
  constructor
  · rintro ⟨n, ⟨hn, hbound⟩, rfl⟩
    rwa [hread n hbound]
  · exact fun h => ⟨toNat w, ⟨h, hlt w⟩, hback w⟩

/-- The digits that are printed for a number are a numeral of it. -/
theorem denotes_digits (n : Nat) : Denotes (digits n) n :=
  (unsigned?_eq_some_iff.1 (unsigned?_digits n.lt_succ_self)).1

/-- A numeral is made of digits and a plus sign. -/
theorem Denotes.mem {cs : List Char} {n : Nat} (h : Denotes cs n) {c : Char} (hc : c ∈ cs) :
    c = '+' ∨ c.isDigit = true := by
  rcases h with ⟨ds, rfl | rfl, -, hall, -⟩
  · exact .inr (hall c hc)
  · exact (List.mem_cons.1 hc).imp_right (hall c)

/-- There is no white space in a numeral. -/
theorem Denotes.isBlank_eq_false {cs : List Char} {n : Nat} (h : Denotes cs n) :
    ∀ c ∈ cs, isBlank c = false := by
  intro c hc
  rcases h.mem hc with rfl | hdigit
  · decide
  · rcases isDigit_iff.1 hdigit with ⟨hlow, hhigh⟩
    simp [isBlank]
    omega

end Numeral

/-! ## White space at the ends -/

/-- A text is white space around `core`, which has none at its own ends. -/
def IsTrimmed (core cs : List Char) : Prop :=
  ∃ before after, cs = before ++ (core ++ after) ∧
    (∀ c ∈ before, isBlank c = true) ∧ (∀ c ∈ after, isBlank c = true) ∧
    (∀ c ∈ core.head?, isBlank c = false) ∧ ∀ c ∈ core.getLast?, isBlank c = false

/-- White space at the start of a text does not matter to its trimmed rest. -/
theorem trimLeft_append {before rest : List Char} (h : ∀ c ∈ before, isBlank c = true) :
    trimLeft (before ++ rest) = trimLeft rest :=
  List.dropWhile_append_of_pos h

/-- A text that starts with something else is left as it is. -/
theorem trimLeft_eq_self {cs : List Char} (h : ∀ c ∈ cs.head?, isBlank c = false) :
    trimLeft cs = cs := by
  cases cs with
  | nil => rfl
  | cons c cs => exact List.dropWhile_cons_of_neg (by simpa using h)

/-- What is taken away at the start is white space, and what is left starts with something else. -/
theorem exists_eq_append_trimLeft (cs : List Char) :
    ∃ before, cs = before ++ trimLeft cs ∧ (∀ c ∈ before, isBlank c = true) ∧
      ∀ c ∈ (trimLeft cs).head?, isBlank c = false := by
  refine ⟨cs.takeWhile isBlank, List.takeWhile_append_dropWhile.symm,
    fun c => List.mem_takeWhile_imp, fun c hc => ?_⟩
  have hfirst := List.head?_dropWhile_not isBlank cs
  rw [trimLeft, Option.mem_def] at hc
  rwa [hc] at hfirst

/-- Trimming leaves a part of the text with nothing but white space around it. -/
theorem isTrimmed_trim (cs : List Char) : IsTrimmed (trim cs) cs := by
  rcases exists_eq_append_trimLeft cs with ⟨before, hcs, hbefore, hhead⟩
  rcases exists_eq_append_trimLeft (trimLeft cs).reverse with ⟨after, hrest, hafter, hlast⟩
  have hsplit : trimLeft cs = trim cs ++ after.reverse := by
    rw [← List.reverse_reverse (trimLeft cs), hrest, List.reverse_append]
    rfl
  refine ⟨before, after.reverse, by rw [← hsplit, ← hcs], hbefore, by simpa using hafter, ?_, ?_⟩
  · intro c hc
    refine hhead c ?_
    rw [hsplit]
    exact List.mem_head?_append_of_mem_head? hc
  · intro c hc
    refine hlast c ?_
    simpa [trim] using hc

/-- Trimming leaves exactly what stands between the white space. -/
theorem trim_eq_iff {core cs : List Char} : trim cs = core ↔ IsTrimmed core cs := by
  constructor
  · rintro rfl
    exact isTrimmed_trim cs
  · rintro ⟨before, after, rfl, hbefore, hafter, hhead, hlast⟩
    have hreverse : trimLeft (after.reverse ++ core.reverse) = core.reverse := by
      rw [trimLeft_append (by simpa using hafter), trimLeft_eq_self (by simpa using hlast)]
    unfold trim
    rw [trimLeft_append hbefore]
    cases core with
    | nil =>
        have hblank : trimLeft after = [] := List.dropWhile_eq_nil_iff.2 hafter
        rw [List.nil_append, hblank]
        rfl
    | cons c core =>
        have hstart : ∀ d ∈ (c :: core ++ after).head?, isBlank d = false := hhead
        rw [trimLeft_eq_self hstart, List.reverse_append, hreverse, List.reverse_reverse]

/-- A text without white space is trimmed as it is. -/
theorem isTrimmed_self {cs : List Char} (h : ∀ c ∈ cs, isBlank c = false) : IsTrimmed cs cs :=
  ⟨[], [], by simp, by simp, by simp, fun c hc => h c (List.mem_of_mem_head? hc),
    fun c hc => h c (List.mem_of_mem_getLast? hc)⟩

/-! ## Cuts at a separator -/

/-- The first separator of a text stands between two parts. -/
def CutsAt (sep : Char) (cs first second : List Char) : Prop :=
  cs = first ++ sep :: second ∧ sep ∉ first

/-- The first part is what stands before any separator. -/
theorem CutsAt.takeWhile_eq {sep : Char} {cs first second : List Char}
    (h : CutsAt sep cs first second) : cs.takeWhile (· != sep) = first := by
  rcases h with ⟨rfl, hsep⟩
  have hfirst : ∀ c ∈ first, (c != sep) = true := fun c hc => bne_iff_ne.2 fun h => hsep (h ▸ hc)
  rw [List.takeWhile_append_of_pos hfirst, List.takeWhile_cons_of_neg (by simp), List.append_nil]

/-- The separator and the second part are what stands behind the first part. -/
theorem CutsAt.dropWhile_eq {sep : Char} {cs first second : List Char}
    (h : CutsAt sep cs first second) : cs.dropWhile (· != sep) = sep :: second := by
  rcases h with ⟨rfl, hsep⟩
  have hfirst : ∀ c ∈ first, (c != sep) = true := fun c hc => bne_iff_ne.2 fun h => hsep (h ▸ hc)
  rw [List.dropWhile_append_of_pos hfirst, List.dropWhile_cons_of_neg (by simp)]

/-- A text that has a separator is cut at the first one. -/
theorem exists_cutsAt {sep : Char} {cs : List Char} (h : cs.dropWhile (· != sep) ≠ []) :
    ∃ first second, CutsAt sep cs first second := by
  have hmem : sep ∈ cs := by
    by_contra hnot
    exact h (List.dropWhile_eq_nil_iff.2 fun c hc => bne_iff_ne.2 fun heq => hnot (heq ▸ hc))
  exact List.eq_append_cons_of_mem hmem

/-- The parts of a text before and after its first separator, if it has one. -/
def parts? (sep : Char) (cs : List Char) : Option (List Char × List Char) :=
  match cs.dropWhile (· != sep) with
  | [] => none
  | _ :: second => some (cs.takeWhile (· != sep), second)

/-- A text has the two parts between which its first separator stands. -/
theorem parts?_eq_some_iff {sep : Char} {cs first second : List Char} :
    parts? sep cs = some (first, second) ↔ CutsAt sep cs first second := by
  constructor
  · intro h
    have hne : cs.dropWhile (· != sep) ≠ [] := by
      intro hnil
      rw [parts?, hnil] at h
      exact nomatch h
    rcases exists_cutsAt hne with ⟨first', second', hcut⟩
    rw [parts?, hcut.dropWhile_eq, hcut.takeWhile_eq] at h
    rcases h with ⟨⟩
    exact hcut
  · intro hcut
    rw [parts?, hcut.dropWhile_eq, hcut.takeWhile_eq]

end Text

open Text Text.Numeral

/-! ## Locations -/

namespace Location

theorem number?_eq_some_iff {cs : List Char} {w : UInt32} :
    number? cs = some w ↔ ∃ core, IsTrimmed core cs ∧ Denotes core w.toNat := by
  unfold number?
  have hread (cs : List Char) :
      (unsigned? UInt32.size cs).map UInt32.ofNat = some w ↔ Denotes cs w.toNat :=
    map_unsigned?_eq_some_iff (fun _ h => UInt32.toNat_ofNat_of_lt' h) UInt32.toNat_lt_size
      fun _ => UInt32.ofNat_toNat
  rw [hread]
  constructor
  · exact fun h => ⟨_, isTrimmed_trim cs, h⟩
  · rintro ⟨core, hcore, h⟩
    rwa [trim_eq_iff.2 hcore]

theorem parse?_eq_bind (s : String) :
    parse? s = (parts? ':' s.toList).bind fun p =>
      (number? p.1).bind fun line => (number? p.2).bind fun col => some ⟨line, col⟩ := by
  unfold parse? parts?
  cases s.toList.dropWhile (· != ':') <;> rfl

theorem parse?_eq_some_iff {s : String} {loc : Location} :
    parse? s = some loc ↔ ∃ first second, CutsAt ':' s.toList first second ∧
      (∃ core, IsTrimmed core first ∧ Denotes core loc.line.toNat) ∧
      ∃ core, IsTrimmed core second ∧ Denotes core loc.col.toNat := by
  rw [parse?_eq_bind]
  simp only [Option.bind_eq_some_iff, Prod.exists, parts?_eq_some_iff, ← number?_eq_some_iff]
  refine exists₂_congr fun first second => and_congr_right fun _ => ?_
  constructor
  · rintro ⟨line, hline, col, hcol, ⟨⟩⟩
    exact ⟨hline, hcol⟩
  · rintro ⟨hline, hcol⟩
    exact ⟨_, hline, _, hcol, rfl⟩

example : parse? " +04 :\t12" = some ⟨4, 12⟩ := by decide

theorem parse?_display (loc : Location) : parse? loc.display = some loc := by
  have hline := denotes_digits loc.line.toNat
  have hcol := denotes_digits loc.col.toNat
  refine parse?_eq_some_iff.2 ⟨_, _, ⟨String.toList_ofList, fun hsep => ?_⟩,
    ⟨_, isTrimmed_self hline.isBlank_eq_false, hline⟩,
    ⟨_, isTrimmed_self hcol.isBlank_eq_false, hcol⟩⟩
  exact absurd (hline.mem hsep) (by decide)

end Location

/-! ## Versions -/

namespace PythonVersion

theorem number?_eq_some_iff {cs : List Char} {w : UInt8} :
    number? cs = some w ↔ Denotes cs w.toNat :=
  map_unsigned?_eq_some_iff (fun _ h => UInt8.toNat_ofNat_of_lt' h) UInt8.toNat_lt_size
    fun _ => UInt8.ofNat_toNat

theorem parse?_eq_bind (s : String) :
    parse? s = (parts? '.' (trim s.toList)).bind fun p =>
      (number? p.1).bind fun major => (number? p.2).bind fun minor => some ⟨major, minor⟩ := by
  unfold parse? parts?
  dsimp only
  cases (trim s.toList).dropWhile (· != '.') <;> rfl

theorem parse?_eq_some_iff {s : String} {v : PythonVersion} :
    parse? s = some v ↔ ∃ core, IsTrimmed core s.toList ∧
      ∃ first second, CutsAt '.' core first second ∧ Denotes first v.major.toNat ∧
        Denotes second v.minor.toNat := by
  rw [parse?_eq_bind]
  simp only [Option.bind_eq_some_iff, Prod.exists, parts?_eq_some_iff, number?_eq_some_iff]
  constructor
  · rintro ⟨first, second, hcut, major, hmajor, minor, hminor, ⟨⟩⟩
    exact ⟨_, isTrimmed_trim _, first, second, hcut, hmajor, hminor⟩
  · rintro ⟨core, hcore, first, second, hcut, hmajor, hminor⟩
    rw [← trim_eq_iff.2 hcore] at hcut
    exact ⟨first, second, hcut, _, hmajor, _, hminor, rfl⟩

example : parse? " 3.07 " = some ⟨3, 7⟩ ∧ parse? "3 .7" = none := by decide

theorem parse?_display (v : PythonVersion) : parse? v.display = some v := by
  have hmajor := denotes_digits v.major.toNat
  have hminor := denotes_digits v.minor.toNat
  have hchars : v.display.toList = digits v.major.toNat ++ '.' :: digits v.minor.toNat := by
    simp [display, Text.Numeral.ofNat]
  have hblank : ∀ c ∈ v.display.toList, isBlank c = false := by
    rw [hchars]
    simp only [List.forall_mem_append, List.forall_mem_cons]
    exact ⟨hmajor.isBlank_eq_false, by decide, hminor.isBlank_eq_false⟩
  refine parse?_eq_some_iff.2 ⟨_, isTrimmed_self hblank, _, _, ⟨hchars, fun hsep => ?_⟩,
    hmajor, hminor⟩
  exact absurd (hmajor.mem hsep) (by decide)

/-- Only what is read as a version is accepted. -/
theorem parse_eq_ok_iff {s : String} {v : PythonVersion} : parse s = .ok v ↔ parse? s = some v := by
  unfold parse
  cases parse? s <;> simp

end PythonVersion

/-- Locations and versions are read from exactly the texts of their grammars. A location is cut
at its first colon into two parts, which are numerals of 32-bit numbers with white space around
them. A version, without the white space around it, is cut at its first point into two numerals
of 8-bit numbers. Any other text is refused as a version, and the failure has the text as it
was. Printed locations and versions are read as what they were. -/
theorem parse_exactly :
    (∀ (s : String) (line col : Nat),
      (∃ loc, Location.parse? s = some loc ∧ loc.line.toNat = line ∧ loc.col.toNat = col) ↔
        (∃ first second, CutsAt ':' s.toList first second ∧
          (∃ core, IsTrimmed core first ∧ Denotes core line) ∧
          ∃ core, IsTrimmed core second ∧ Denotes core col) ∧ line < 2 ^ 32 ∧ col < 2 ^ 32) ∧
      (∀ (s : String) (major minor : Nat),
        (∃ v, PythonVersion.parse s = .ok v ∧ v.major.toNat = major ∧ v.minor.toNat = minor) ↔
          (∃ core, IsTrimmed core s.toList ∧ ∃ first second, CutsAt '.' core first second ∧
            Denotes first major ∧ Denotes second minor) ∧ major < 256 ∧ minor < 256) ∧
      (∀ s : String, (∃ v, PythonVersion.parse s = .ok v) ∨
        PythonVersion.parse s = .error (.pythonVersion s)) ∧
      (∀ loc : Location, Location.parse? loc.display = some loc) ∧
      ∀ v : PythonVersion, PythonVersion.parse v.display = .ok v := by
  refine ⟨fun s line col => ?_, fun s major minor => ?_, fun s => ?_, Location.parse?_display,
    fun v => PythonVersion.parse_eq_ok_iff.2 v.parse?_display⟩
  · simp only [Location.parse?_eq_some_iff]
    constructor
    · rintro ⟨loc, hloc, rfl, rfl⟩
      exact ⟨hloc, loc.line.toNat_lt_size, loc.col.toNat_lt_size⟩
    · rintro ⟨hparts, hline, hcol⟩
      refine ⟨⟨.ofNat line, .ofNat col⟩, ?_, UInt32.toNat_ofNat_of_lt' hline,
        UInt32.toNat_ofNat_of_lt' hcol⟩
      rwa [UInt32.toNat_ofNat_of_lt' hline, UInt32.toNat_ofNat_of_lt' hcol]
  · simp only [PythonVersion.parse_eq_ok_iff, PythonVersion.parse?_eq_some_iff]
    constructor
    · rintro ⟨v, hv, rfl, rfl⟩
      exact ⟨hv, v.major.toNat_lt_size, v.minor.toNat_lt_size⟩
    · rintro ⟨hparts, hmajor, hminor⟩
      refine ⟨⟨.ofNat major, .ofNat minor⟩, ?_, UInt8.toNat_ofNat_of_lt' hmajor,
        UInt8.toNat_ofNat_of_lt' hminor⟩
      rwa [UInt8.toNat_ofNat_of_lt' hmajor, UInt8.toNat_ofNat_of_lt' hminor]
  · unfold PythonVersion.parse
    cases PythonVersion.parse? s with
    | none => exact .inr rfl
    | some v => exact .inl ⟨v, rfl⟩

end TypeTrace

import TypeTrace.Text.Blank
import TypeTrace.Text.Numeral

/-!
# Source locations

A location is a line, counted from one, and a column, counted from zero in the
bytes of the line. Locations are ordered by line and then by column.
-/

namespace TypeTrace

/-- A place in a source text. -/
structure Location where
  line : UInt32
  col : UInt32
  deriving DecidableEq, Repr, Inhabited

namespace Location

instance : Ord Location := ⟨compareLex (compareOn line) (compareOn col)⟩

instance : Std.TransOrd Location :=
  inferInstanceAs (Std.TransCmp (compareLex (compareOn line) (compareOn col)))

instance : Std.LawfulEqOrd Location where
  eq_of_compare {a b} h := by
    have h' : compareLex (compareOn line) (compareOn col) a b = .eq := h
    rw [compareLex_eq_eq] at h'
    obtain ⟨hl, hc⟩ := h'
    have hl := Std.LawfulEqOrd.eq_of_compare hl
    have hc := Std.LawfulEqOrd.eq_of_compare hc
    cases a
    cases b
    simp_all

/-- The characters of `line:col`. -/
def displayChars (l : Location) : List Char :=
  Text.Numeral.digits l.line.toNat ++ ':' :: Text.Numeral.digits l.col.toNat

/-- The text `line:col`. -/
def display (l : Location) : String := String.ofList (displayChars l)

/-- A number of 32 bits, with white space around it allowed. -/
def number? (cs : List Char) : Option UInt32 :=
  (Text.Numeral.unsigned? UInt32.size (Text.trim cs)).map UInt32.ofNat

/-- Reads a line and a column around the first colon of a text. -/
def parse? (s : String) : Option Location :=
  match s.toList.dropWhile (· != ':') with
  | [] => none
  | _ :: after => do
    let line ← number? (s.toList.takeWhile (· != ':'))
    let col ← number? after
    return ⟨line, col⟩

end Location

end TypeTrace

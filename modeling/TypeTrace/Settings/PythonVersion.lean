import TypeTrace.Text.Blank
import TypeTrace.Text.Numeral

/-!
# Python versions

A version is a major and a minor number, written with a point between them and
ordered by the major number first. Before version 3.7 the bytecode of an
assignment over several lines records its stores on the last line of the
assigned value instead of the line of the target.

Main statement: `hasAssignLineSkew_iff`, the versions that record stores so.
-/

namespace TypeTrace

/-- A Python version. -/
structure PythonVersion where
  major : UInt8
  minor : UInt8
  deriving DecidableEq, Repr, Inhabited

namespace PythonVersion

instance : Ord PythonVersion := ⟨compareLex (compareOn major) (compareOn minor)⟩

/-- The text `major.minor`. -/
def display (v : PythonVersion) : String :=
  Text.Numeral.ofNat v.major.toNat ++ "." ++ Text.Numeral.ofNat v.minor.toNat

/-- A number of eight bits. -/
def number? (cs : List Char) : Option UInt8 :=
  (Text.Numeral.unsigned? UInt8.size cs).map UInt8.ofNat

/-- Reads the numbers around the first point of a text; white space is allowed
around the whole text only. -/
def parse? (s : String) : Option PythonVersion :=
  let cs := Text.trim s.toList
  match cs.dropWhile (· != '.') with
  | [] => none
  | _ :: after => do
    let major ← number? (cs.takeWhile (· != '.'))
    let minor ← number? after
    return ⟨major, minor⟩

/-- The first version that records stores on the line of their target. -/
def firstWithoutSkew : PythonVersion := ⟨3, 7⟩

/-- Are the stores of an assignment recorded on the last line of its value? -/
def hasAssignLineSkew (v : PythonVersion) : Bool := compare v firstWithoutSkew == .lt

/-- The skew ends with version 3.7. -/
theorem hasAssignLineSkew_iff {v : PythonVersion} :
    v.hasAssignLineSkew = true ↔ v.major < 3 ∨ v.major = 3 ∧ v.minor < 7 := by
  have horder : compare v firstWithoutSkew =
      (compare v.major 3).then (compare v.minor 7) := rfl
  unfold hasAssignLineSkew
  rw [horder, beq_iff_eq, Ordering.then_eq_lt, Std.compare_eq_iff_eq]
  exact or_congr compareOfLessAndEq_eq_lt (and_congr_right fun _ => compareOfLessAndEq_eq_lt)

end PythonVersion

end TypeTrace

import TypeTrace.Collections.SortedMap
import TypeTrace.Text.Lines
import TypeTrace.Trace.Opcode
import TypeTrace.Types.Ty

/-!
# Stores of traces

A trace says that one operation was executed and with which types. A store has
the text of a module and, for each of its lines, the traces of that line in the
order of execution.

Main statements:

* `traces_push`: a new trace becomes the last one of its line;
* `get?_eq_some_iff`: a key is the place of a trace on its line.
-/

namespace TypeTrace

/-- One executed operation. -/
structure Trace where
  op : Opcode
  /-- The name or the constant that the operation works on. -/
  symbol : Literal
  /-- The types that were met, first those of the operands and last the result's. -/
  types : List Ty
  deriving DecidableEq, Repr, Inhabited

/-- The type of the result; it is `Any` when nothing was recorded. -/
def Trace.resultType (t : Trace) : Ty := t.types.getLastD .any

/-- The place of a trace in a store: its line and its index on that line. -/
structure TraceKey where
  line : UInt32
  index : Nat
  deriving DecidableEq, Repr, Inhabited

/-- The text of a module with the traces of each line. -/
structure Store where
  fileName : Option String
  lines : List String
  table : SortedMap UInt32 (List Trace)
  deriving Inhabited

namespace Store

/-- The store of a text without traces. -/
def ofText (text : String) : Store :=
  { fileName := none
    lines := (Text.lines text.toList).map String.ofList
    table := .empty }

/-- Adds a trace after all others of its line. -/
def push (s : Store) (line : UInt32) (t : Trace) : Store :=
  { s with table := s.table.upsert line fun ts => ts.getD [] ++ [t] }

/-- The store of a text and of its traces in the order of execution. -/
def ofTraces (text : String) (traces : List (UInt32 × Trace)) : Store :=
  traces.foldl (fun s t => s.push t.1 t.2) (ofText text)

/-- The traces of a line in the order of execution. -/
def traces (s : Store) (line : UInt32) : List Trace := (s.table.find? line).getD []

def get? (s : Store) (key : TraceKey) : Option Trace := (s.traces key.line)[key.index]?

/-- The text of a line; lines are counted from one. -/
def line? (s : Store) (line : UInt32) : Option String :=
  match line.toNat with
  | 0 => none
  | n + 1 => s.lines[n]?

/-- The number of traces. -/
def size (s : Store) : Nat := s.table.values.flatten.length

def isEmpty (s : Store) : Bool := s.size == 0

@[simp]
theorem traces_ofText (text : String) (line : UInt32) : (ofText text).traces line = [] := rfl

theorem traces_push (s : Store) (line line' : UInt32) (t : Trace) :
    (s.push line t).traces line' =
      if line' = line then s.traces line ++ [t] else s.traces line' := by
  unfold traces push
  rw [SortedMap.find?_upsert]
  split <;> rfl

theorem get?_eq_some_iff {s : Store} {key : TraceKey} {t : Trace} :
    s.get? key = some t ↔
      ∃ h : key.index < (s.traces key.line).length, (s.traces key.line)[key.index] = t :=
  List.getElem?_eq_some_iff

/-! ## A listing of the traces -/

/-- A text in a field of at least four places, moved to its right end. -/
def rightAligned (s : String) : String := "".pushn ' ' (4 - s.length) ++ s

/-- The line of the listing for one trace. -/
def traceLine (t : Trace) : String :=
  "      " ++ t.op.name ++ " " ++ t.symbol.display ++ " -> [" ++
    Ty.commaSep (t.types.map Ty.display) ++ "]\n"

/-- The file name, and each line with traces followed by them. -/
def listing (s : Store) : String :=
  let title := match s.fileName with
    | none => ""
    | some name => name ++ "\n"
  s.table.toList.foldl (fun text entry =>
    entry.2.foldl (fun text t => text ++ traceLine t)
      (text ++ rightAligned (Text.Numeral.ofNat entry.1.toNat) ++ ": " ++
        (s.line? entry.1).getD "" ++ "\n")) title

end Store

end TypeTrace

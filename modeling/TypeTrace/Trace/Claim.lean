import TypeTrace.Event
import TypeTrace.Location
import TypeTrace.Trace.Store

/-!
# Claims on traces

A request asks for traces of one line by operation and symbol. During one
traversal of a tree every trace can be claimed once: a request gets traces that
nobody has claimed before, in the order of execution, and they are claimed from
then on.

Main statement: `isClaimed_claim`, claiming a key makes that key claimed and
changes no other one.
-/

namespace TypeTrace

/-- What is asked of a line: traces with one of the operations and one of the
symbols. -/
structure Request where
  line : UInt32
  ops : List Opcode
  symbols : List Literal
  deriving DecidableEq, Repr

/-- Does a trace fit a request? Symbols are compared by value. -/
def Request.accepts (r : Request) (t : Trace) : Bool :=
  t.op ∈ r.ops && r.symbols.any fun s => s.equal t.symbol

/-- A trace that was claimed, and its place in the store. -/
structure Claim where
  key : TraceKey
  trace : Trace
  deriving DecidableEq, Repr

/-- The state of one traversal. -/
structure Traversal where
  /-- The traces claimed so far, the latest one first. -/
  claimed : List TraceKey
  /-- The last line of the value that the nearest assignment assigns, as far as
  it matters. -/
  assignEndLine : Option UInt32
  inTarget : Bool
  deriving DecidableEq, Repr

namespace Traversal

/-- The state before anything was claimed. -/
def fresh : Traversal := { claimed := [], assignEndLine := none, inTarget := false }

instance : Inhabited Traversal := ⟨fresh⟩

def isClaimed (t : Traversal) (key : TraceKey) : Bool := key ∈ t.claimed

/-- The number of traces claimed. -/
def claimedCount (t : Traversal) : Nat := t.claimed.length

def claim (t : Traversal) (key : TraceKey) : Traversal := { t with claimed := key :: t.claimed }

theorem isClaimed_claim (t : Traversal) (key key' : TraceKey) :
    (t.claim key).isClaimed key' = (decide (key' = key) || t.isClaimed key') := by
  simp [isClaimed, claim]

end Traversal

namespace Request

/-- Claims at most `limit` of the given traces, which stand on the line of the
request from `index` on. Without a limit all that fit are claimed. -/
def claimFrom (r : Request) (index : Nat) :
    Option Nat → List Trace → Traversal → List Claim × Traversal
  | some 0, _, tr => ([], tr)
  | _, [], tr => ([], tr)
  | limit, t :: ts, tr =>
    let key : TraceKey := ⟨r.line, index⟩
    if tr.isClaimed key || !r.accepts t then claimFrom r (index + 1) limit ts tr
    else
      let (claims, tr) := claimFrom r (index + 1) (limit.map (· - 1)) ts (tr.claim key)
      (⟨key, t⟩ :: claims, tr)

/-- Claims at most `limit` traces of a store for a request. -/
def claim (r : Request) (limit : Option Nat) (store : Store) (tr : Traversal) :
    List Claim × Traversal :=
  r.claimFrom 0 limit (store.traces r.line) tr

end Request

/-- The report of a claim. -/
def Claim.event (c : Claim) : Event :=
  { level := .trace
    message := "consumed trace"
    data := [("line", Text.Numeral.ofNat c.key.line.toNat),
      ("index", Text.Numeral.ofNat c.key.index), ("op", c.trace.op.name),
      ("symbol", c.trace.symbol.display)] }

end TypeTrace

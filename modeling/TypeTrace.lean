import TypeTrace.Ast.Literal
import TypeTrace.Ast.Node
import TypeTrace.Ast.Walk
import TypeTrace.CallGraph.Basic
import TypeTrace.CallGraph.Function
import TypeTrace.CallGraph.Params
import TypeTrace.CallGraph.Report
import TypeTrace.Collections.SortedMap
import TypeTrace.Decimal.Binary64
import TypeTrace.Decimal.Reading
import TypeTrace.Decimal.Shortest
import TypeTrace.Event
import TypeTrace.Index.Symbol
import TypeTrace.Index.SymbolIndex
import TypeTrace.Json.Basic
import TypeTrace.Json.Printer
import TypeTrace.Json.Reader
import TypeTrace.Json.Record
import TypeTrace.Location
import TypeTrace.Proofs.Accounting
import TypeTrace.Proofs.AttributePlaces
import TypeTrace.Proofs.CallTargets
import TypeTrace.Proofs.Claiming
import TypeTrace.Proofs.Composition
import TypeTrace.Proofs.ExactValue
import TypeTrace.Proofs.Filing
import TypeTrace.Proofs.FirstDefinition
import TypeTrace.Proofs.FlatUnion
import TypeTrace.Proofs.GraphFold
import TypeTrace.Proofs.Grouping
import TypeTrace.Proofs.ImportPlaces
import TypeTrace.Proofs.IndexHistory
import TypeTrace.Proofs.LastLine
import TypeTrace.Proofs.LexicalScope
import TypeTrace.Proofs.LiteralEquality
import TypeTrace.Proofs.Locality
import TypeTrace.Proofs.NumberPairs
import TypeTrace.Proofs.Occurrences
import TypeTrace.Proofs.Pairing
import TypeTrace.Proofs.ParameterTypes
import TypeTrace.Proofs.Portions
import TypeTrace.Proofs.Queues
import TypeTrace.Proofs.ReadBack
import TypeTrace.Proofs.RecordedCalls
import TypeTrace.Proofs.Regrouping
import TypeTrace.Proofs.Reordering
import TypeTrace.Proofs.Requests
import TypeTrace.Proofs.ScopeChain
import TypeTrace.Proofs.Serving
import TypeTrace.Proofs.SlotHistory
import TypeTrace.Proofs.SlotRuns
import TypeTrace.Proofs.Subtrees
import TypeTrace.Proofs.TextScan
import TypeTrace.Proofs.Thinning
import TypeTrace.Proofs.Unsolved
import TypeTrace.Proofs.UnsolvedMembers
import TypeTrace.Proofs.Versions
import TypeTrace.Proofs.Visits
import TypeTrace.Proofs.WalkLog
import TypeTrace.Proofs.WalkRecord
import TypeTrace.Settings.Config
import TypeTrace.Settings.LogLevel
import TypeTrace.Settings.PythonVersion
import TypeTrace.Text.Blank
import TypeTrace.Text.Lines
import TypeTrace.Text.Numeral
import TypeTrace.Text.Search
import TypeTrace.Text.Utf8
import TypeTrace.Text.Word
import TypeTrace.Toml.Document
import TypeTrace.Toml.Statement
import TypeTrace.Trace.Alignment
import TypeTrace.Trace.Annotation
import TypeTrace.Trace.Claim
import TypeTrace.Trace.Columns
import TypeTrace.Trace.Matching
import TypeTrace.Trace.Opcode
import TypeTrace.Trace.Store
import TypeTrace.Types.Join
import TypeTrace.Types.Slot
import TypeTrace.Types.Ty
import TypeTrace.Wire.Index
import TypeTrace.Wire.Place
import TypeTrace.Wire.Trace
import TypeTrace.Wire.Types

import TypeTrace.Proofs.LexicalScope
import TypeTrace.Proofs.Queues

/-!
# Pairing by position

Attributes, calls, loads of names, subscripts and plain imports of one name form a
family on each line. No other node asks for a trace that a family asks for, since the
groups of operations are disjoint but for those that store names. So the requests of a
family get the traces of the family by position.

Main results:

* `Visit.request_eq_of_accepts`: no request outside a family fits its traces;
* `Visit.filter_due`: the requests of a family in terms of the nodes that make them;
* `align_paired`: the requests of a family and its traces are paired by position.
-/

namespace TypeTrace

/-! ## Families -/

/-- The nodes and the traces of one sort that go by one name. -/
inductive Family where
  | attr (name : String)
  | call (name : String)
  | load (name : String)
  | subscript
  | plainImport (name : String)
  deriving DecidableEq, Repr

namespace Family

def group : Family → OpGroup
  | attr _ => .attributes
  | call _ => .calls
  | load _ => .loads
  | subscript => .subscripts
  | plainImport _ => .plainImports

def names : Family → List String
  | attr name | call name | load name | plainImport name => [name]
  | subscript => subscriptMethods

/-- Does a trace belong to the family? It has one of its operations and one of its
names. -/
def covers (f : Family) (t : Trace) : Bool :=
  t.op ∈ f.group.ops && decide (∃ name ∈ f.names, t.symbol = .str name)

/-- The request for the traces of the family on a line. -/
def request (f : Family) (line : UInt32) : Request :=
  { line, ops := f.group.ops, symbols := f.names.map .str }

/-- The places of the nodes of the family at a visit: those of its kind that go by its
name. An import stands at as many places as it has names of the family that it does not
rename. -/
def placesAt (f : Family) (store : Store) (v : Visit) : List Location :=
  let location := v.node.location
  match f, v.node.kind with
  | attr name, .attr _ name' _ =>
    if name' = name then [store.attributeLocation name' location] else []
  | call name, .call func _ _ => if lastSegment func.head = name then [location] else []
  | load name, .name id .load => if id = name then [location] else []
  | subscript, .subscript .. => [location]
  | plainImport name, .imports names =>
    (names.filter fun a => a.asName = none ∧ a.name = name).map fun a =>
      store.importLocation a.name location
  | _, _ => []

/-- The requests of the nodes of the family at a visit. Each of them asks as the family does
on the line of the visit. -/
def requestsOf (f : Family) (store : Store) (v : Visit) : List PlacedRequest :=
  (f.placesAt store v).map fun location => { request := f.request v.line, location }

theorem storesName_group (f : Family) : f.group.storesName = false := by
  cases f <;> rfl

theorem group_ne_constants (f : Family) : f.group ≠ .constants := by
  cases f <;> exact OpGroup.noConfusion

theorem goesBy_names (f : Family) : f.group.GoesBy f.names := by
  cases f with
  | attr name | call name | load name | plainImport name => exact ⟨name, rfl⟩
  | subscript => exact rfl

end Family

/-! ## Which requests fit the traces of a family -/

theorem Literal.equal_str (name : String) (l : Literal) :
    (Literal.str name).equal l = decide (l = .str name) := by
  cases l with
  | str other =>
      rw [Bool.eq_iff_iff, decide_eq_true_eq, str.injEq]
      exact beq_iff_eq.trans eq_comm
  | _ => rfl

/-- A request by names accepts the traces that have one of its names. -/
theorem Request.accepts_names {r : Request} {names : List String} (h : r.symbols = names.map .str)
    (t : Trace) :
    r.accepts t = (t.op ∈ r.ops && decide (∃ name ∈ names, t.symbol = .str name)) := by
  unfold accepts
  rw [h, List.any_map]
  congr 1
  rw [Bool.eq_iff_iff, List.any_eq_true, decide_eq_true_eq]
  simp only [Function.comp_apply, Literal.equal_str, decide_eq_true_eq]

theorem Family.accepts_request (f : Family) (line : UInt32) (t : Trace) :
    (f.request line).accepts t = f.covers t :=
  Request.accepts_names rfl t

namespace Visit

/-- A request that fits a trace of a family asks as the family does. -/
theorem request_eq_of_accepts {store : Store} {v : Visit} {r : PlacedRequest}
    (hr : r ∈ v.due store) {f : Family} {t : Trace} (haccepts : r.request.accepts t = true)
    (hcovers : f.covers t = true) : r.request = f.request r.request.line := by
  rcases (of_mem_due hr).group with ⟨g, hops, hsymbols⟩
  unfold Family.covers at hcovers
  rw [Bool.and_eq_true, decide_eq_true_eq, decide_eq_true_eq] at hcovers
  rcases hcovers with ⟨hop, name, hname, hsymbol⟩
  have hop' : t.op ∈ g.ops := by
    unfold Request.accepts at haccepts
    rw [Bool.and_eq_true, decide_eq_true_eq, hops] at haccepts
    exact haccepts.1
  have hgroup : g = f.group := OpGroup.eq_of_mem_ops f.storesName_group hop hop'
  rcases hsymbols with hconstants | ⟨names, hgoes, hsymbols⟩
  · exact absurd (hgroup.symm.trans hconstants) f.group_ne_constants
  · rw [Request.accepts_names hsymbols, Bool.and_eq_true, decide_eq_true_eq, decide_eq_true_eq]
      at haccepts
    rcases haccepts with ⟨-, name', hname', hsymbol'⟩
    rw [hgroup] at hgoes
    have hsame : name' = name := Literal.str.inj (hsymbol'.symm.trans hsymbol)
    rw [hsame] at hname'
    have hnames := hgoes.eq_of_mem f.goesBy_names hname' hname
    rw [hgroup] at hops
    rw [hnames] at hsymbols
    unfold Family.request
    rw [← hops, ← hsymbols]

end Visit

/-! ## The requests of a family -/

/-- A request is that of a family if the group and the symbols agree. -/
theorem Family.eq_request_iff {f : Family} {line : UInt32} {g : OpGroup} {symbols : List Literal} :
    (⟨line, g.ops, symbols⟩ : Request) = f.request line ↔
      g = f.group ∧ symbols = f.names.map .str := by
  unfold request
  constructor
  · intro h
    rcases Request.mk.inj h with ⟨-, hops, hsymbols⟩
    exact ⟨OpGroup.ops_injective hops, hsymbols⟩
  · rintro ⟨rfl, rfl⟩
    rfl

/-- A single request belongs to a family if the group and the symbols agree. -/
theorem Family.filter_ofGroup (f : Family) (line : UInt32) (g : OpGroup)
    (symbols : List Literal) (location : Location) :
    [PlacedRequest.ofGroup line g symbols location].filter (fun r => r.request = f.request line) =
      (if g = f.group ∧ symbols = f.names.map .str then [location] else []).map
        fun location => { request := f.request line, location } := by
  rw [List.filter_cons, List.filter_nil]
  simp only [PlacedRequest.ofGroup, eq_request_iff, decide_eq_true_eq]
  by_cases hsame : g = f.group ∧ symbols = f.names.map .str
  · rw [if_pos hsame, if_pos hsame, hsame.1, hsame.2]
    rfl
  · rw [if_neg hsame, if_neg hsame]
    rfl

/-- A name of a plain import belongs to a family if it goes by the name of the family and
keeps it. -/
theorem Family.plainDue_eq_iff {f : Family} {store : Store} {location : Location} {a : Alias} :
    (a.plainDue store location).request = f.request location.line ↔
      a.asName = none ∧ .plainImport a.name = f := by
  rcases a with ⟨name, _ | bound⟩
  · refine eq_request_iff.trans ?_
    cases f <;> simp [group, names]
  · refine eq_request_iff.trans ?_
    cases f <;> simp [group]

/-- Of what is due for the names of a plain import that is of a family which is due for its
name. -/
theorem Family.filter_plainDue (f : Family) (store : Store) (location : Location)
    (imported : List Alias) :
    (imported.map (·.plainDue store location)).filter
        (fun r => r.request = f.request location.line) =
      (imported.filter fun a => a.asName = none ∧ .plainImport a.name = f).map fun a =>
        ⟨f.request location.line, store.importLocation a.name location⟩ := by
  have hfilter : imported.filter ((fun r => decide (r.request = f.request location.line)) ∘
      (·.plainDue store location)) =
        imported.filter fun a => a.asName = none ∧ .plainImport a.name = f :=
    List.filter_congr fun a _ => decide_eq_decide.2 plainDue_eq_iff
  rw [List.filter_map, hfilter]
  apply List.map_congr_left
  intro a ha
  rcases of_decide_eq_true (List.mem_filter.1 ha).2 with ⟨hname, rfl⟩
  unfold Alias.plainDue
  rw [hname]
  rfl

/-- Nothing that is due for the names imported from a module is of a family. -/
theorem Family.filter_fromDue (f : Family) (store : Store) (location : Location)
    (imported : List Alias) :
    (imported.map (·.fromDue store location)).filter
      (fun r => r.request = f.request location.line) = [] := by
  rw [List.filter_eq_nil_iff]
  intro r hr hsame
  rcases List.mem_map.1 hr with ⟨a, -, rfl⟩
  have hgroup := (eq_request_iff.1 (of_decide_eq_true hsame)).1
  cases f <;> exact OpGroup.noConfusion hgroup

namespace Visit

/-- The requests that ask as a family does are those of the nodes of the family. -/
theorem filter_due (f : Family) (store : Store) (v : Visit) :
    (v.due store).filter (fun r => r.request = f.request v.line) = f.requestsOf store v := by
  rcases v with ⟨⟨kind, location⟩, nameLine⟩
  cases kind with
  | attr | call | constant | subscript =>
      refine (f.filter_ofGroup ..).trans (congrArg _ ?_)
      cases f <;> simp [Family.group, Family.names, subscriptMethods, Family.placesAt, Node.kind]
  | name id ctx =>
      cases ctx with
      | load | store =>
          refine (f.filter_ofGroup ..).trans (congrArg _ ?_)
          cases f <;> simp [Family.group, Family.names, Family.placesAt, Node.kind]
      | del | param => cases f <;> rfl
  | imports names =>
      refine (f.filter_plainDue store location names).trans ?_
      cases f with
      | plainImport name =>
          simp only [Family.plainImport.injEq]
          exact List.map_map.symm
      | _ => simp [Family.requestsOf, Family.placesAt, Node.kind]
  | importFrom source names level =>
      refine (f.filter_fromDue store location names).trans ?_
      cases f <;> rfl
  | _ => cases f <;> rfl

end Visit

namespace Family

/-- The requests of a family on a line that visits make, in order. -/
def askedOn (f : Family) (store : Store) (line : UInt32) (visits : List Visit) :
    List PlacedRequest :=
  (visits.flatMap (f.requestsOf store)).filter (·.request.line = line)

/-- The traces of a family on a line, in the order of execution. -/
def tracesOn (f : Family) (store : Store) (line : UInt32) : List Claim :=
  (store.entries line).filter (f.covers ·.trace)

/-- The records of the traces of a family on a line. -/
def recordsOn (f : Family) (line : UInt32) (records : List Alignment) : List Alignment :=
  records.filter fun r => r.key.line = line ∧ f.covers r.trace

/-- The requests of visits that ask as a family does on a line are those of the family
on that line. -/
theorem filter_due_eq_askedOn (f : Family) (store : Store) (line : UInt32)
    (visits : List Visit) :
    (visits.flatMap (Visit.due store)).filter (fun r => r.request = f.request line) =
      f.askedOn store line visits := by
  unfold askedOn
  rw [List.filter_flatMap, List.filter_flatMap]
  apply List.flatMap_congr
  intro v _
  rw [← Visit.filter_due, List.filter_filter]
  apply List.filter_congr
  intro r hr
  rw [← Bool.decide_and, decide_eq_decide]
  have hline : r.request.line = v.line := (Visit.of_mem_due hr).line_eq
  constructor
  · intro h
    have hfamily : r.request.line = line := by
      rw [h]
      rfl
    exact ⟨hfamily, by rw [← hline, hfamily, h]⟩
  · rintro ⟨hfamily, h⟩
    rw [← hfamily, hline]
    exact h

/-- The traces of a family on a line are a queue from which only the requests of the
family on that line draw. -/
theorem queueUp (f : Family) (store : Store) (line : UInt32) (visits : List Visit) :
    QueueUp line f.covers (fun r => r.request = f.request line)
      (visits.flatMap (Visit.due store)) := by
  intro r hr
  rcases List.mem_flatMap.1 hr with ⟨v, -, hrv⟩
  by_cases hasks : r.request = f.request line
  · rw [if_pos (decide_eq_true hasks)]
    refine ⟨by rw [hasks]; rfl, fun t => ?_⟩
    rw [hasks]
    exact f.accepts_request line t
  · rw [if_neg (by rw [decide_eq_true_eq]; exact hasks)]
    intro hline t hcovers
    by_contra haccepts
    rw [Bool.not_eq_false] at haccepts
    have hrequest := Visit.request_eq_of_accepts hrv haccepts hcovers
    rw [hline] at hrequest
    exact hasks hrequest

end Family

/-! ## Pairing -/

/-- The requests of a family on a line and the traces of the family there are paired by
position, whatever else is on the line. All requests of the tree are served in order,
and the answers are what aligning the tree returns. Among them the requests of the
family get the trace at their own position, and none if there are fewer traces. The
records of the family's traces come from these requests alone, so the traces that are
left over are claimed by nothing. -/
theorem Aligner.align_paired (a : Aligner) {n : Node} (h : n.TargetsAssignFree) (f : Family)
    (line : UInt32) :
    let visits := a.lexicalVisits none n
    let served := serveEach a.store [] (visits.flatMap (Visit.due a.store))
    let asked := f.askedOn a.store line visits
    let traces := f.tracesOn a.store line
    a.align n = .ok (answersOf served) ∧
      served.map (·.1) = visits.flatMap (Visit.due a.store) ∧
      served.filter (fun p => p.1.request = f.request line) =
        asked.mapIdx (fun i r => (r, traces[i]?.map (·.recordedAt r.location))) ∧
      f.recordsOn line (answersOf served) =
        List.zipWith (fun c r => c.recordedAt r.location) traces asked ∧
      ∀ c ∈ traces.drop asked.length, ∀ answer ∈ answersOf served, answer.key ≠ c.key := by
  intro visits served asked traces
  have hqueue := f.queueUp a.store line visits
  have hasked := f.filter_due_eq_askedOn a.store line visits
  have hwaiting := a.store.waiting_nil line f.covers
  refine ⟨a.align_eq_serve_due h, map_fst_serveEach _ _ _, ?_, ?_, ?_⟩
  · have hpairs := hqueue.serveEach_eq_mapIdx a.store []
    rw [hasked, hwaiting] at hpairs
    exact hpairs
  · have hanswers := hqueue.filter_answersOf a.store []
    rw [hasked, hwaiting] at hanswers
    exact hanswers
  · have hleft := hqueue.waiting_serveEach a.store []
    rw [hasked, hwaiting] at hleft
    intro c hc answer hanswer hkey
    rw [show traces.drop asked.length = _ from hleft.symm] at hc
    rcases Store.mem_waiting.1 hc with ⟨-, -, huntaken⟩
    apply huntaken
    unfold takenAfter
    rw [List.append_nil, List.mem_reverse]
    exact List.mem_map.2 ⟨answer, hanswer, hkey⟩

/-- An assignment of `f(x.a[0], f(x.a))` on one line to `t[x]` on the line before, and then
one import that has the same name twice, aligned for a version with the skew. Of some
families there are more traces than nodes, and of others fewer. -/
def pairedFamilies : Aligner × Node :=
  ({ store := .ofTraces "t[x] = (\nf(x.a[0], f(x.a)))\nimport os, os"
      [(1, ⟨.binarySubscr, .str "__getitem__", []⟩), (2, ⟨.loadName, .str "f", []⟩),
        (2, ⟨.loadName, .str "x", [.any]⟩), (2, ⟨.loadAttr, .str "a", []⟩),
        (2, ⟨.slice0, .str "__getslice__", []⟩), (2, ⟨.loadName, .str "x", []⟩),
        (2, ⟨.loadAttr, .str "a", [.any]⟩), (2, ⟨.callFunction, .str "f", []⟩),
        (2, ⟨.loadName, .str "x", []⟩), (2, ⟨.loadName, .str "x", []⟩),
        (2, ⟨.storeAttr, .str "a", []⟩), (2, ⟨.binarySubscr, .str "__getitem__", []⟩),
        (3, ⟨.importName, .str "os", []⟩)]
     version := ⟨3, 6⟩ },
    .ofBody
      [.mk (.assign
        [.mk (.subscript (.mk (.name "t" .load) ⟨1, 0⟩) (.mk (.name "x" .load) ⟨1, 2⟩) .store)
          ⟨1, 0⟩]
        (.mk (.call (.mk (.name "f" .load) ⟨2, 0⟩)
          [.mk (.subscript (.mk (.attr (.mk (.name "x" .load) ⟨2, 2⟩) "a" .load) ⟨2, 2⟩)
              (.mk (.constant (.int 0)) ⟨2, 6⟩) .load) ⟨2, 2⟩,
            .mk (.call (.mk (.name "f" .load) ⟨2, 10⟩)
              [.mk (.attr (.mk (.name "x" .load) ⟨2, 12⟩) "a" .load) ⟨2, 12⟩] []) ⟨2, 10⟩]
          []) ⟨2, 0⟩)) ⟨1, 0⟩,
        .mk (.imports [⟨"os", none⟩, ⟨"os", none⟩]) ⟨3, 0⟩])

/-- Each family gets its traces in order. On the second line a load, an attribute and a
subscript were traced once too often. The inner call and the second name of the import are
left without a trace. -/
theorem align_pairedFamilies :
    pairedFamilies.2.TargetsAssignFree ∧
      ∃ records, pairedFamilies.1.align pairedFamilies.2 = .ok records ∧
        (Family.load "x").recordsOn 2 records =
          [⟨⟨⟨2, 1⟩, ⟨.loadName, .str "x", [.any]⟩⟩, ⟨1, 2⟩⟩,
            ⟨⟨⟨2, 4⟩, ⟨.loadName, .str "x", []⟩⟩, ⟨2, 2⟩⟩,
            ⟨⟨⟨2, 7⟩, ⟨.loadName, .str "x", []⟩⟩, ⟨2, 12⟩⟩] ∧
        (Family.attr "a").recordsOn 2 records =
          [⟨⟨⟨2, 2⟩, ⟨.loadAttr, .str "a", []⟩⟩, ⟨2, 4⟩⟩,
            ⟨⟨⟨2, 5⟩, ⟨.loadAttr, .str "a", [.any]⟩⟩, ⟨2, 14⟩⟩] ∧
        (Family.call "f").recordsOn 2 records =
          [⟨⟨⟨2, 6⟩, ⟨.callFunction, .str "f", []⟩⟩, ⟨2, 0⟩⟩] ∧
        Family.subscript.recordsOn 2 records =
          [⟨⟨⟨2, 3⟩, ⟨.slice0, .str "__getslice__", []⟩⟩, ⟨2, 2⟩⟩] ∧
        (Family.plainImport "os").recordsOn 3 records =
          [⟨⟨⟨3, 0⟩, ⟨.importName, .str "os", []⟩⟩, ⟨3, 7⟩⟩] ∧
        ∀ r ∈ records, r.key ≠ ⟨2, 8⟩ ∧ r.key ≠ ⟨2, 9⟩ ∧ r.key ≠ ⟨2, 10⟩ := by
  have hfree : pairedFamilies.2.TargetsAssignFree := by decide +kernel
  obtain ⟨halign, -, -, hloads, hload⟩ := pairedFamilies.1.align_paired hfree (.load "x") 2
  obtain ⟨-, -, -, hattrs, hattr⟩ := pairedFamilies.1.align_paired hfree (.attr "a") 2
  obtain ⟨-, -, -, hcalls, -⟩ := pairedFamilies.1.align_paired hfree (.call "f") 2
  obtain ⟨-, -, -, hsubscripts, hsubscript⟩ := pairedFamilies.1.align_paired hfree .subscript 2
  obtain ⟨-, -, -, himports, -⟩ := pairedFamilies.1.align_paired hfree (.plainImport "os") 3
  refine ⟨hfree, _, halign, hloads.trans ?_, hattrs.trans ?_, hcalls.trans ?_,
    hsubscripts.trans ?_, himports.trans ?_, ?_⟩
  · decide +kernel
  · decide +kernel
  · decide +kernel
  · decide +kernel
  · decide +kernel
  · intro r hr
    exact ⟨hload ⟨⟨2, 8⟩, ⟨.loadName, .str "x", []⟩⟩ (by decide +kernel) r hr,
      hattr ⟨⟨2, 9⟩, ⟨.storeAttr, .str "a", []⟩⟩ (by decide +kernel) r hr,
      hsubscript ⟨⟨2, 10⟩, ⟨.binarySubscr, .str "__getitem__", []⟩⟩ (by decide +kernel) r hr⟩

end TypeTrace

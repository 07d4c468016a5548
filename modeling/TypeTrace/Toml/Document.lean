import TypeTrace.Toml.Statement

/-!
# TOML documents

The statements of a text are put together into one table. A table may be opened
by its header, be implied by the header of a table inside it, or come about
through dotted keys. Each may be completed only by the means that opened it, but
for one case: an implied table may still get its own header. All other repeated
keys are refused.

The result is a `Json` value, since a document is decoded by the same rules as
JSON. Tables keep the order in which their members were completed.
-/

namespace TypeTrace.Toml

/-- How a table came about. -/
inductive Origin where
  | header
  | implied
  | dotted
  deriving DecidableEq

/-- What a key of an unfinished table stands for. -/
inductive Item where
  | value (v : Json)
  | table (origin : Origin) (members : List (String × Item))
  | elements (tables : List (List (String × Item)))
  deriving Inhabited

/-- The members of an unfinished table, in order. -/
abbrev Members := List (String × Item)

/-- Puts an item in the place of the one that a key has. -/
def Members.replace (members : Members) (key : String) (item : Item) : Members :=
  members.map fun m => if m.1 = key then (key, item) else m

/-- Changes the table at a path, seen from a table of origin `here`. Tables that
are missing on the way come about by dots if `dots` is set and by implication
otherwise. A path leads through the last element of an array of tables, through
no value and, if written with dots, through no table with a header. -/
def alterAt? (dots : Bool) (change : Origin → Members → Option Members) :
    Path → Origin → Members → Option Members
  | [], here, members => change here members
  | key :: path, _, members =>
    match members.lookup key with
    | none => do
      let origin := if dots then Origin.dotted else Origin.implied
      return members ++ [(key, .table origin (← alterAt? dots change path origin []))]
    | some (.value _) => none
    | some (.table origin inner) =>
      if dots && origin = .header then none
      else do
        return members.replace key (.table origin (← alterAt? dots change path origin inner))
    | some (.elements tables) => do
      let last ← tables.getLast?
      let last ← alterAt? dots change path .header last
      return members.replace key (.elements (tables.dropLast ++ [last]))

/-- Assigns a value to a dotted key, seen from a table with a header. -/
def assign? (members : Members) (path : Path) (v : Json) : Option Members := do
  let key ← path.getLast?
  let parents := path.dropLast
  alterAt? true (fun here members =>
    if (here == .dotted) == parents.isEmpty then none
    else if (members.lookup key).isSome then none
    else some (members ++ [(key, .value v)])) parents .header members

/-- Assigns several values one after the other. -/
def assignAll? (members : Members) (assignments : List (Path × Json)) : Option Members :=
  assignments.foldlM (fun members a => assign? members a.1 a.2) members

/-- Opens the table at a path by its header and completes it. -/
def openTable? (root : Members) (path : Path) (assignments : List (Path × Json)) :
    Option Members := do
  let key ← path.getLast?
  alterAt? false (fun _ members =>
    match members.lookup key with
    | none => do
      return members ++ [(key, .table .header (← assignAll? [] assignments))]
    | some (.table .implied inner) => do
      let rest := members.filter fun m => m.1 ≠ key
      return rest ++ [(key, .table .header (← assignAll? inner assignments))]
    | some _ => none) path.dropLast .header root

/-- Adds an element to the array of tables at a path. -/
def openElement? (root : Members) (path : Path) (assignments : List (Path × Json)) :
    Option Members := do
  let key ← path.getLast?
  let element ← assignAll? [] assignments
  alterAt? false (fun _ members =>
    match members.lookup key with
    | none => some (members ++ [(key, .elements [element])])
    | some (.elements tables) => some (members.replace key (.elements (tables ++ [element])))
    | some _ => none) path.dropLast .header root

/-! ## Finished values -/

mutual

/-- The finished value of an item. -/
def Item.toJson : Item → Json
  | .value v => v
  | .table _ members => .obj (membersToJson members)
  | .elements tables => .arr (tablesToJson tables)

def membersToJson : List (String × Item) → List (String × Json)
  | [] => []
  | (k, item) :: rest => (k, item.toJson) :: membersToJson rest

def tablesToJson : List (List (String × Item)) → List Json
  | [] => []
  | t :: ts => .obj (membersToJson t) :: tablesToJson ts

end

mutual

/-- The value that a written one denotes, unless keys of an inline table clash. -/
def Value.toJson? : Value → Option Json
  | .plain v => some v
  | .array items => (itemsToJson? items).map .arr
  | .inlineTable members => do
    let table ← assignAll? [] (← assignmentsToJson? members)
    return .obj (membersToJson table)

def itemsToJson? : List Value → Option (List Json)
  | [] => some []
  | v :: vs => do return (← v.toJson?) :: (← itemsToJson? vs)

def assignmentsToJson? : List (Path × Value) → Option (List (Path × Json))
  | [] => some []
  | (path, v) :: rest => do return (path, ← v.toJson?) :: (← assignmentsToJson? rest)

end

/-! ## Documents -/

/-- The assignments up to the next header, and the statements from it on. -/
def section? : List Statement → Option (List (Path × Json) × List Statement)
  | .assign path v :: rest => do
    let v ← v.toJson?
    let (assignments, rest) ← section? rest
    return ((path, v) :: assignments, rest)
  | rest => some ([], rest)

/-- Adds the sections under the headers of a document. -/
def addSections? (root : Members) : (fuel : Nat) → List Statement → Option Members
  | 0, _ => none
  | _ + 1, [] => some root
  | fuel + 1, s :: rest => do
    let (assignments, rest) ← section? rest
    match s with
    | .table path => addSections? (← openTable? root path assignments) fuel rest
    | .element path => addSections? (← openElement? root path assignments) fuel rest
    | .assign _ _ => none

/-- The value of a document; none for a text that is no TOML. -/
def parse? (text : String) : Option Json := do
  let (assignments, rest) ← section? (← statements? text)
  let root ← assignAll? [] assignments
  return .obj (membersToJson (← addSections? root (rest.length + 1) rest))

end TypeTrace.Toml

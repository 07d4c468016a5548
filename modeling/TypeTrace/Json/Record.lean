import TypeTrace.Json.Basic

/-!
# Records in JSON

A record is an object with a member for each field, or an array of the values of
its fields in the order of their declaration. Members of other names are skipped,
a field given twice is refused, and an array may leave out fields at its end.
Which fields may be missing is for the decoder of each field to say.

Main statements:

* `required?_cons`, `defaulted?_cons`: the first field of a name is the one that counts;
* `uint32?_int_toNat`: a word that is written as a number is read back.
-/

namespace TypeTrace.Json

/-- The members of an object that are fields, in the order of the text. -/
def ofMembers? {ν : Type} (names : List String) (members : List (String × ν)) :
    Option (List (String × ν)) :=
  let known := members.filter fun m => m.1 ∈ names
  if (known.map (·.1)).Nodup then some known else none

/-- The items of an array as the first fields. -/
def ofItems? {ν : Type} (names : List String) (items : List ν) : Option (List (String × ν)) :=
  if items.length ≤ names.length then some (names.zip items) else none

/-- The fields of a record that a value gives. -/
def fields? (names : List String) : Json → Option (List (String × Json))
  | .obj members => ofMembers? names members
  | .arr items => ofItems? names items
  | _ => none

/-- A field that has to be given. -/
def required? {ν α : Type} (fields : List (String × ν)) (name : String)
    (decode : ν → Option α) : Option α :=
  (fields.lookup name).bind decode

/-- A field with a value that holds when the field is missing. -/
def defaulted? {ν α : Type} (fields : List (String × ν)) (name : String) (missing : α)
    (decode : ν → Option α) : Option α :=
  match fields.lookup name with
  | none => some missing
  | some v => decode v

@[simp]
theorem required?_cons {ν α : Type} (fields : List (String × ν)) (name name' : String) (v : ν)
    (decode : ν → Option α) :
    required? ((name', v) :: fields) name decode =
      if name = name' then decode v else required? fields name decode := by
  by_cases h : name = name'
  · simp [required?, h]
  · simp [required?, List.lookup_cons, h, beq_false_of_ne h]

@[simp]
theorem defaulted?_nil {ν α : Type} (name : String) (missing : α) (decode : ν → Option α) :
    defaulted? [] name missing decode = some missing :=
  rfl

@[simp]
theorem defaulted?_cons {ν α : Type} (fields : List (String × ν)) (name name' : String) (v : ν)
    (missing : α) (decode : ν → Option α) :
    defaulted? ((name', v) :: fields) name missing decode =
      if name = name' then decode v else defaulted? fields name missing decode := by
  by_cases h : name = name'
  · simp [defaulted?, h]
  · simp [defaulted?, List.lookup_cons, h, beq_false_of_ne h]

/-- A value or `null`. -/
def nullable? {α : Type} (decode : Json → Option α) : Json → Option (Option α)
  | .null => some none
  | v => (decode v).map some

/-- A field that may be missing or `null`. -/
def optional? {α : Type} (fields : List (String × Json)) (name : String)
    (decode : Json → Option α) : Option (Option α) :=
  defaulted? fields name none (nullable? decode)

/-! ## Plain values -/

def str? : Json → Option String
  | .str s => some s
  | _ => none

def bool? : Json → Option Bool
  | .bool b => some b
  | _ => none

/-- An integer from `low` up to below `high`. -/
def intBetween? (low high : Int) : Json → Option Int
  | .int n => if low ≤ n ∧ n < high then some n else none
  | _ => none

/-- A natural number below `bound`. -/
def natBelow? (bound : Nat) : Json → Option Nat
  | .int (.ofNat n) => if n < bound then some n else none
  | _ => none

def uint32? (v : Json) : Option UInt32 := (natBelow? UInt32.size v).map UInt32.ofNat

theorem natBelow?_int (n bound : Nat) :
    natBelow? bound (.int n) = if n < bound then some n else none :=
  rfl

theorem uint32?_int_toNat (x : UInt32) : uint32? (.int x.toNat) = some x := by
  simp [uint32?, natBelow?_int, x.toNat_lt_size]

/-- A list, with every item decoded. -/
def list? {α : Type} (decode : Json → Option α) : Json → Option (List α)
  | .arr items => items.mapM decode
  | _ => none

/-- A pair, as an array of two items. -/
def pair? {α β : Type} (first : Json → Option α) (second : Json → Option β) :
    Json → Option (α × β)
  | .arr [a, b] => do return (← first a, ← second b)
  | _ => none

/-- The name of a case without content: a string, or an object whose only member
has that name and the value `null`. -/
def caseName? : Json → Option String
  | .str s => some s
  | .obj [(s, .null)] => some s
  | _ => none

/-! ## Encoding -/

/-- A value, or `null` for its absence. -/
def ofOption {α : Type} (encode : α → Json) : Option α → Json
  | none => .null
  | some a => encode a

/-- The items of a list as an array. -/
def ofList {α : Type} (encode : α → Json) (items : List α) : Json := .arr (items.map encode)

end TypeTrace.Json

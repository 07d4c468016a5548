import TypeTrace.Json.Record
import TypeTrace.Location

/-!
# Locations in JSON

Main statement: `Location.ofJson?_toJson`, decoding gives back what was encoded.
-/

namespace TypeTrace.Location

/-- A location as a record of its two numbers. -/
def toJson (l : Location) : Json :=
  .obj [("line", .int l.line.toNat), ("col", .int l.col.toNat)]

/-- Reads a location. Both numbers have to be there and have 32 bits. -/
def ofJson? (v : Json) : Option Location := do
  let fields ← v.fields? ["line", "col"]
  return { line := ← Json.required? fields "line" Json.uint32?
           col := ← Json.required? fields "col" Json.uint32? }

/-- What is written for a location is read as it. -/
@[simp]
theorem ofJson?_toJson (l : Location) : ofJson? l.toJson = some l := by
  have h : l.toJson.fields? ["line", "col"] =
      some [("line", .int l.line.toNat), ("col", .int l.col.toNat)] := by
    simp [Json.fields?, Json.ofMembers?, toJson]
  simp [ofJson?, h, Json.uint32?_int_toNat]

end TypeTrace.Location

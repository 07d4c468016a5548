import TypeTrace.Location
import TypeTrace.Text.Blank
import TypeTrace.Text.Search
import TypeTrace.Text.Word
import TypeTrace.Trace.Store

/-!
# Columns of names

Traces have no columns, and a node stands at the start of its expression. Where
an attribute or an imported name stands on its line is found in the text:

* an attribute after a dot and white space, as a whole word;
* an imported name after a space, or else after a comma.

Columns count bytes of UTF-8.
-/

namespace TypeTrace.Text

/-- Does a text that follows `before` start with a name, and does a word end with
that name? -/
def startsWord (name : List Char) (before : Char) (text : List Char) : Bool :=
  name.isPrefixOf text &&
    isWordBoundary (some (name.getLastD before)) (text.drop name.length).head?

/-- The offset of a name at the start of a text, behind as much white space as
possible. -/
def wordOffset? (name : List Char) (before : Char) : List Char → Option Nat
  | [] => if startsWord name before [] then some 0 else none
  | c :: cs =>
    match if isBlank c then wordOffset? name c cs else none with
    | some n => some (c.utf8Size + n)
    | none => if startsWord name before (c :: cs) then some 0 else none

/-- The offset of the first name in a text that follows a dot. -/
def attributeOffset? (name : List Char) : List Char → Option Nat
  | [] => none
  | c :: cs =>
    match if c == '.' then wordOffset? name c cs else none with
    | some n => some (c.utf8Size + n)
    | none => (attributeOffset? name cs).map (c.utf8Size + ·)

end TypeTrace.Text

namespace TypeTrace.Store

/-- The place of an attribute of a node at `loc`, or `loc` itself if the attribute
does not stand on the rest of the line. A name of any length is searched for: that
the pattern for a name of hundreds of thousands of bytes may be too large to
compile, which leaves the attribute at `loc` too, is not modelled. -/
def attributeLocation (s : Store) (name : String) (loc : Location) : Location :=
  let offset? := do
    let text ← s.line? loc.line
    let rest ← Text.dropBytes? loc.col.toNat text.toList
    Text.attributeOffset? name.toList rest
  match offset? with
  | some n => { loc with col := .ofNat (loc.col.toNat + n) }
  | none => loc

/-- The column of an imported name on a line. It is taken from the first place
where the name follows a space, or a comma if there is none, so it may also be
the start of a longer name. -/
def importColumn? (s : Store) (line : UInt32) (name : String) : Option UInt32 := do
  let text ← s.line? line
  let hit ← Text.offset? (' ' :: name.toList) text.toList <|>
    Text.offset? (',' :: name.toList) text.toList
  return .ofNat (hit + 1)

/-- The place of a name imported by the statement at `loc`, or `loc` itself if the
name is not found on the line. -/
def importLocation (s : Store) (name : String) (loc : Location) : Location :=
  match s.importColumn? loc.line name with
  | some col => { loc with col := col }
  | none => loc

end TypeTrace.Store

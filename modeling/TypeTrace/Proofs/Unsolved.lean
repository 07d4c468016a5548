import Mathlib.Data.List.Infix
import TypeTrace.Types.Ty

/-!
# Types that mention an unsolved type

Whether a type mentions one that inference could not solve is read off its text, by a search
for the mark of such types. The search is exact. Between the texts of two parts there is
always punctuation that begins with a character the mark does not have, so no mark can begin
in one text and end in another.

Main results:

* `isMarked_append_append`: punctuation keeps the texts on both sides apart;
* `isMarked_display`: the text of a type is marked if the type is unsolved or the text of a
  part is marked;
* `isMarked_display_iff`: the text of a type is marked exactly if it mentions an unsolved type;
* `unsolved_hidden`: the search is exact, and no reported name shows an unsolved type.
-/

namespace TypeTrace.Ty

/-! ## Texts side by side -/

/-- A part of a text does not begin among characters that are not its first one. -/
theorem infix_append_iff_of_not_mem {c : Char} {part front text : List Char} (h : c ∉ front) :
    c :: part <:+: front ++ text ↔ c :: part <:+: text := by
  induction front with
  | nil => rfl
  | cons d front ih =>
      rw [List.mem_cons, not_or] at h
      rcases h with ⟨hne, hfront⟩
      have hprefix : ¬c :: part <+: d :: (front ++ text) :=
        fun hp => hne (List.cons_prefix_cons.1 hp).1
      rw [List.cons_append, List.infix_cons_iff, or_iff_right hprefix, ih hfront]

/-- A part of a text does not reach across a character that it does not have. -/
theorem infix_append_cons_iff {d : Char} {part left right : List Char} (h : d ∉ part) :
    part <:+: left ++ d :: right ↔ part <:+: left ∨ part <:+: d :: right := by
  rw [List.infix_append_iff]
  refine ⟨?_, Or.imp_right Or.inl⟩
  rintro (hleft | hright | ⟨l, r, rfl, hl, hr⟩)
  · exact .inl hleft
  · exact .inr hright
  · -- The part is cut before `d`: either nothing of it is left there or it has a `d`.
    rcases List.prefix_cons_iff.1 hr with rfl | ⟨r, rfl, -⟩
    · rw [List.append_nil]
      exact .inl hl.isInfix
    · exact absurd (List.mem_append_right l List.mem_cons_self) h

/-- Texts between which a mark of unsolved types cannot lie: the mark does not have their
first character, and they do not have the first character of the mark. -/
def isPunctuation (s : String) : Bool :=
  match s.toList with
  | [] => false
  | d :: rest => d ∉ unknownMark.toList ∧ '~' ∉ rest

theorem isMarked_iff {s : String} : isMarked s = true ↔ unknownMark.toList <:+: s.toList :=
  Text.occurs_iff

/-- Punctuation keeps the texts on both sides of it apart. -/
theorem isMarked_append_append {s : String} (h : isPunctuation s = true) (left right : String) :
    isMarked (left ++ s ++ right) = (isMarked left || isMarked right) := by
  unfold isPunctuation at h
  rw [Bool.eq_iff_iff, Bool.or_eq_true, isMarked_iff, isMarked_iff, isMarked_iff,
    String.toList_append, String.toList_append]
  cases hs : s.toList with
  | nil => simp [hs] at h
  | cons d rest =>
      rw [hs] at h
      rcases of_decide_eq_true h with ⟨hfirst, hrest⟩
      have hmark : unknownMark.toList = '~' :: "unknown".toList := by decide
      have hd : '~' ∉ d :: rest := by
        rw [hmark, List.mem_cons, not_or] at hfirst
        exact List.not_mem_cons_of_ne_of_not_mem (Ne.symm hfirst.1) hrest
      rw [List.append_assoc, List.cons_append, infix_append_cons_iff hfirst, ← List.cons_append,
        hmark, infix_append_iff_of_not_mem hd]

theorem isMarked_empty : isMarked "" = false := by
  decide

theorem isMarked_append {s : String} (h : isPunctuation s = true) (left : String) :
    isMarked (left ++ s) = isMarked left := by
  have happend := isMarked_append_append h left ""
  rwa [String.append_empty, isMarked_empty, Bool.or_false] at happend

theorem isMarked_append_left {s : String} (h : isPunctuation s = true) (right : String) :
    isMarked (s ++ right) = isMarked right := by
  have happend := isMarked_append_append h "" right
  rwa [String.empty_append, isMarked_empty, Bool.false_or] at happend

/-- Brackets around a text do not matter. -/
theorem isMarked_enclosed {s : String} (h : isPunctuation s = true) (inner : String) :
    isMarked (s ++ inner ++ "]") = isMarked inner := by
  rw [isMarked_append (by decide), isMarked_append_left h]

/-- A list of texts is marked if one of them is. -/
theorem isMarked_commaSep (texts : List String) :
    isMarked (commaSep texts) = texts.any isMarked := by
  induction texts with
  | nil => exact isMarked_empty
  | cons s texts ih =>
      cases texts with
      | nil => rw [commaSep, List.any_cons, List.any_nil, Bool.or_false]
      | cons t rest =>
          rw [commaSep, isMarked_append_append (by decide), ih]
          rfl

theorem commaSep_eq_intercalate (texts : List String) :
    commaSep texts = ", ".intercalate texts := by
  induction texts with
  | nil => rw [commaSep, String.intercalate_nil]
  | cons s texts ih =>
      cases texts with
      | nil => rw [commaSep, String.intercalate_singleton]
      | cons t rest => rw [commaSep, ih, String.intercalate_cons_cons]

/-! ## The text of a type -/

/-- A type that mentions one which inference could not solve, at any depth: the unknown type
itself, a named type with a marked name, or a type with such a part. -/
inductive MentionsUnsolved : Ty → Prop where
  | unknown : MentionsUnsolved .unknown
  | named {name : String} {args : List Ty} (hname : unknownMark.toList <:+: name.toList) :
      MentionsUnsolved (.named name args)
  | part {s t : Ty} (hmem : s ∈ t.parts) (hpart : MentionsUnsolved s) : MentionsUnsolved t

/-- Is the type itself unsolved, whatever its parts are? -/
def isUnsolved : Ty → Bool
  | .unknown => true
  | .named name _ => isMarked name
  | _ => false

theorem mentionsUnsolved_iff {t : Ty} :
    MentionsUnsolved t ↔ t.isUnsolved = true ∨ ∃ s ∈ t.parts, MentionsUnsolved s := by
  constructor
  · rintro (_ | hname | ⟨hmem, hpart⟩)
    · exact .inl rfl
    · exact .inl (isMarked_iff.2 hname)
    · exact .inr ⟨_, hmem, hpart⟩
  · rintro (hself | ⟨s, hmem, hpart⟩)
    · cases t with
      | unknown => exact .unknown
      | named name args => exact .named (isMarked_iff.1 hself)
      | _ => exact absurd hself Bool.false_ne_true
    · exact .part hmem hpart

theorem isMarked_commaSep_displayAll (ts : List Ty) :
    isMarked (commaSep (displayAll ts)) = ts.any fun s => isMarked (display s) := by
  rw [isMarked_commaSep, displayAll_eq_map, List.any_map]
  rfl

/-- The text of a type is marked if the type is unsolved or the text of a part is marked. -/
theorem isMarked_display (t : Ty) :
    isMarked (display t) = (t.isUnsolved || t.parts.any fun s => isMarked (display s)) := by
  cases t with
  | named name args =>
      cases args with
      | nil => rw [display, isUnsolved, parts, List.any_nil, Bool.or_false]
      | cons a args =>
          rw [display, isMarked_append (by decide), isMarked_append_append (by decide),
            isMarked_commaSep_displayAll]
          rfl
  | union members =>
      rw [display, isMarked_enclosed (by decide), isMarked_commaSep_displayAll]
      rfl
  | callable params returns =>
      rw [display, isMarked_append (by decide), isMarked_append_append (by decide),
        isMarked_append_left (by decide), isMarked_commaSep_displayAll, parts, List.any_append,
        List.any_cons, List.any_nil, Bool.or_false]
      rfl
  | tuple elements =>
      cases elements with
      | nil => decide
      | cons a elements =>
          rw [display, isMarked_enclosed (by decide), isMarked_commaSep_displayAll]
          rfl
  | any | nothing | unknown => decide

/-- The text of a type is marked exactly if the type mentions an unsolved one. -/
theorem isMarked_display_iff (t : Ty) : isMarked (display t) = true ↔ MentionsUnsolved t := by
  induction t using Ty.induct with
  | step t ih =>
      rw [isMarked_display, Bool.or_eq_true, List.any_eq_true, mentionsUnsolved_iff]
      refine or_congr_right ?_
      constructor
      · rintro ⟨s, hmem, hmarked⟩
        exact ⟨s, hmem, (ih s hmem).1 hmarked⟩
      · rintro ⟨s, hmem, hpart⟩
        exact ⟨s, hmem, (ih s hmem).2 hpart⟩

instance : DecidablePred MentionsUnsolved := fun t =>
  decidable_of_iff _ (isMarked_display_iff t)

/-! ## Reported names -/

theorem isMarked_unknownToAny (s : String) : isMarked (unknownToAny s) = false := by
  unfold unknownToAny
  by_cases h : isMarked s = true
  · rw [if_pos h]
    decide
  · rw [if_neg h]
    exact Bool.eq_false_iff.2 h

/-- No reported name is marked. -/
theorem isMarked_typeName (t : Ty) : isMarked (typeName t) = false := by
  cases t with
  | any | unknown => decide
  | _ => exact isMarked_unknownToAny _

/-- The name of a union lists the names of its members. None of them is marked, so the union
is never replaced as a whole. -/
theorem typeName_union (members : List Ty) :
    typeName (.union members) = "Union[" ++ ", ".intercalate (members.map typeName) ++ "]" := by
  have hnames : (members.map typeName).any isMarked = false := by
    simp [isMarked_typeName]
  have hunion : ¬isMarked ("Union[" ++ commaSep (members.map typeName) ++ "]") = true := by
    rw [isMarked_enclosed (by decide), isMarked_commaSep, hnames]
    exact Bool.false_ne_true
  rw [typeName, typeNames_eq_map, unknownToAny, if_neg hunion, commaSep_eq_intercalate]

/-- Any other type is reported as `typing.Any` as a whole if it mentions an unsolved type. -/
theorem typeName_of_ne_union {t : Ty} (h : ∀ members, t ≠ .union members) :
    typeName t = if t = .any ∨ MentionsUnsolved t then anyName else display t := by
  have hname : typeName t = if t = .any then anyName else unknownToAny (display t) := by
    cases t with
    | union members => exact absurd rfl (h members)
    | any => rfl
    | unknown => decide
    | _ => rfl
  rw [hname, unknownToAny]
  by_cases hany : t = .any
  · rw [if_pos hany, if_pos (.inl hany)]
  · rw [if_neg hany]
    simp only [hany, false_or, isMarked_display_iff]

/-- The text of a type has the mark of unsolved types in it exactly if the type mentions an
unsolved type. So `typing.Any` is reported for just those types, unions apart. The name of a
union is put together from the names of its members, whatever they mention. No reported name
has the mark in it. -/
theorem unsolved_hidden (t : Ty) :
    (unknownMark.toList <:+: (display t).toList ↔ MentionsUnsolved t) ∧
      typeName t =
        (match t with
        | .union members => "Union[" ++ ", ".intercalate (members.map typeName) ++ "]"
        | t => if t = .any ∨ MentionsUnsolved t then anyName else display t) ∧
      ¬unknownMark.toList <:+: (typeName t).toList := by
  refine ⟨isMarked_iff.symm.trans (isMarked_display_iff t), ?_, ?_⟩
  · cases t with
    | union members => exact typeName_union members
    | _ => exact typeName_of_ne_union fun members => Ty.noConfusion
  · rw [← isMarked_iff, isMarked_typeName]
    exact Bool.false_ne_true

example : typeName (.union [.named "int" [], .named "List" [.unknown], .any]) =
    "Union[int, typing.Any, typing.Any]" := by decide

end TypeTrace.Ty

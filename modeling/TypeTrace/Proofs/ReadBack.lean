import Mathlib.Data.List.Induction
import TypeTrace.Wire.Index

/-!
# What is written is read back

Every value that has a form in JSON is decoded from that form again. First come the ways
in which values are put together: lists, pairs, values that may be absent, tables and
records. Types are nested in types, so for them an induction over the parts of a type
carries the same through. A record then reads back since its fields do.

Main results:

* `ReadsBack.list`, `ReadsBack.pair`, `ReadsBack.option`, `SortedMap.readsBack`: what
  reads back when its parts do;
* `fields?_obj`: the fields of a record that is written as an object;
* `Ty.type?_ofJson_toJson`: a type inside of another one;
* `wire_readsBack`: types, slots and symbol indices.
-/

namespace TypeTrace

namespace Json

variable {α β : Type}

/-! ## Values that are put together -/

/-- Decoding gives back all that was encoded. -/
def ReadsBack (encode : α → Json) (decode : Json → Option α) : Prop :=
  ∀ a, decode (encode a) = some a

/-- A list is decoded item by item if each of its items is. -/
theorem mapM_map_eq_some {ν : Type} {encode : α → ν} {decode : ν → Option α} {as : List α}
    (h : ∀ a ∈ as, decode (encode a) = some a) : (as.map encode).mapM decode = some as := by
  induction as with
  | nil => rfl
  | cons a as ih =>
      have hrest := ih fun b hb => h b (List.mem_cons_of_mem _ hb)
      rw [List.map_cons, List.mapM_cons, h a List.mem_cons_self, hrest]
      rfl

namespace ReadsBack

variable {encode : α → Json} {decode : Json → Option α} {encode' : β → Json}
  {decode' : Json → Option β}

/-- A text reads back. -/
theorem str : ReadsBack .str str? := fun _ => rfl

/-- A list reads back if its items do. -/
theorem list (h : ReadsBack encode decode) : ReadsBack (ofList encode) (list? decode) :=
  fun _ => mapM_map_eq_some fun a _ => h a

/-- A pair reads back if both its parts do. -/
theorem pair (h : ReadsBack encode decode) (h' : ReadsBack encode' decode') :
    ReadsBack (fun p => .arr [encode p.1, encode' p.2]) (pair? decode decode') := by
  intro p
  dsimp only [pair?]
  rw [h p.1, h' p.2]
  rfl

/-- A value that may be absent reads back, since what stands for its absence is no value. -/
theorem option (h : ReadsBack encode decode) (hnull : decode .null = none) :
    ReadsBack (ofOption encode) (nullable? decode) := by
  intro present
  cases present with
  | none => rfl
  | some a =>
      have ha := h a
      show nullable? decode (encode a) = some (some a)
      unfold nullable?
      split
      · rename_i heq
        rw [heq, hnull] at ha
        exact absurd ha.symm (Option.some_ne_none a)
      · rw [ha]
        rfl

end ReadsBack

/-! ## Records -/

/-- A field that may be absent is read off the first member of its name. -/
theorem optional?_cons (fields : List (String × Json)) (name name' : String) (v : Json)
    (decode : Json → Option α) :
    optional? ((name', v) :: fields) name decode =
      if name = name' then nullable? decode v else optional? fields name decode :=
  defaulted?_cons ..

/-- The members of an object that lists fields of a record, and some of them may be left
out, are those fields. -/
theorem ofMembers?_eq_self {ν : Type} {names : List String} {members : List (String × ν)}
    (h : (members.map (·.1)).Sublist names) (hnames : names.Nodup) :
    ofMembers? names members = some members := by
  have hall : (members.filter fun m => m.1 ∈ names) = members := by
    rw [List.filter_eq_self]
    intro m hm
    exact decide_eq_true (h.subset (List.mem_map_of_mem hm))
  unfold ofMembers?
  dsimp only
  rw [hall, if_pos (hnames.sublist h)]

/-- A member that is no field is skipped. -/
theorem ofMembers?_cons_of_not_mem {ν : Type} {names : List String} {name : String}
    (h : name ∉ names) (v : ν) (members : List (String × ν)) :
    ofMembers? names ((name, v) :: members) = ofMembers? names members := by
  unfold ofMembers?
  rw [List.filter_cons_of_neg (by simpa using h)]

/-- A record that is written as an object gives its fields. -/
theorem fields?_obj {names : List String} {members : List (String × Json)}
    (h : (members.map (·.1)).Sublist names) (hnames : names.Nodup) :
    (obj members).fields? names = some members :=
  ofMembers?_eq_self h hnames

/-! ## Readable values -/

/-- A list denotes something if each of its items does. -/
theorem areReadable_eq_all (vs : List Json) : areReadable vs = vs.all isReadable := by
  induction vs with
  | nil => rfl
  | cons v vs ih => rw [areReadable, List.all_cons, ih]

end Json

open Json

/-! ## Tables -/

namespace SortedMap

variable {ν : Type}

/-- No key of a table is listed twice. -/
theorem nodup_keys (m : SortedMap String ν) : (m.toList.map (·.1)).Nodup := by
  refine List.Pairwise.map _ (fun a b hlt heq => ?_) m.increasing
  rw [heq] at hlt
  simp at hlt

/-- The last entry of a list is put into the table last. -/
theorem ofList_concat (entries : List (String × ν)) (e : String × ν) :
    ofList (entries ++ [e]) = (ofList entries).insert e.1 e.2 := by
  unfold ofList
  rw [List.foldl_append]
  rfl

/-- Where no key is listed twice, each entry holds. -/
theorem find?_ofList_eq_some_iff {entries : List (String × ν)}
    (h : (entries.map (·.1)).Nodup) (k : String) (v : ν) :
    (ofList entries).find? k = some v ↔ (k, v) ∈ entries := by
  induction entries using List.reverseRecOn with
  | nil => simp [ofList]
  | append_singleton entries e ih =>
      rw [List.map_append, List.nodup_append] at h
      rw [ofList_concat, find?_insert, List.mem_append, List.mem_singleton]
      by_cases hk : k = e.1
      · subst hk
        have hnew : (e.1, v) ∉ entries := fun hmem =>
          h.2.2 e.1 (List.mem_map.2 ⟨_, hmem, rfl⟩) e.1 List.mem_cons_self rfl
        rw [if_pos rfl]
        constructor
        · intro hv
          rw [← Option.some.inj hv]
          exact .inr rfl
        · rintro (hmem | heq)
          · exact absurd hmem hnew
          · rw [← heq]
      · rw [if_neg hk, ih h.1]
        constructor
        · exact .inl
        · rintro (hmem | rfl)
          · exact hmem
          · exact absurd rfl hk

/-- A table is made again from its entries, in whatever order they are listed. -/
theorem ofList_eq_of_perm {entries : List (String × ν)} {m : SortedMap String ν}
    (h : entries.Perm m.toList) : ofList entries = m := by
  have hkeys : (entries.map (·.1)).Nodup := (h.map (·.1)).nodup_iff.2 m.nodup_keys
  apply ext_find?
  intro k
  apply Option.ext
  intro v
  rw [find?_ofList_eq_some_iff hkeys, h.mem_iff, m.mem_toList_iff]

/-- A table reads back from its members, in whatever order they stand. -/
theorem ofJson?_obj_of_perm {encode : ν → Json} {decode : Json → Option ν}
    (h : ReadsBack encode decode) {entries : List (String × ν)} {m : SortedMap String ν}
    (hentries : entries.Perm m.toList) :
    ofJson? decode (.obj (entries.map fun e => (e.1, encode e.2))) = some m := by
  have hdecoded : (entries.map fun e => (e.1, encode e.2)).mapM
      (fun e => (decode e.2).map fun v => (e.1, v)) = some entries :=
    mapM_map_eq_some fun e _ => by
      dsimp only
      rw [h e.2]
      rfl
  dsimp only [ofJson?]
  rw [hdecoded, Option.map_some, ofList_eq_of_perm hentries]

/-- A table reads back if its values do. -/
theorem readsBack {encode : ν → Json} {decode : Json → Option ν} (h : ReadsBack encode decode) :
    ReadsBack (toJson encode) (ofJson? decode) :=
  fun _ => ofJson?_obj_of_perm h (.refl _)

end SortedMap

/-! ## Types -/

namespace TyPart

/-- The names of members stay as they are in any role. -/
theorem map_fst_ofMembers (members : List (String × Json)) :
    (ofMembers members).map (·.1) = members.map (·.1) := by
  induction members with
  | nil => rfl
  | cons m members ih => rw [ofMembers, List.map_cons, List.map_cons, ih]

/-- An object that starts with the name of a case and lists the fields of this case
describes a type of the case. -/
theorem type?_ofJson_obj (case : TyCase) (members : List (String × Json))
    (h : (members.map (·.1)).Sublist case.fieldNames) :
    (ofJson (.obj (("kind", .str case.name) :: members))).type? =
      build? case (ofMembers members) := by
  have hnames : case.fieldNames.Nodup ∧ "kind" ∉ case.fieldNames := by cases case <;> decide
  have hkeys : ((ofMembers members).map (·.1)).Sublist case.fieldNames := by
    rw [map_fst_ofMembers]
    exact h
  have hfields : Json.ofMembers? case.fieldNames
      (("kind", ofJson (.str case.name)) :: ofMembers members) = some (ofMembers members) := by
    rw [ofMembers?_cons_of_not_mem hnames.2, ofMembers?_eq_self hkeys hnames.1]
  have htag : ((ofMembers members).filter fun m => m.1 = "kind") = [] := by
    rw [List.filter_eq_nil_iff]
    intro m hm hkind
    apply hnames.2
    rw [← of_decide_eq_true hkind]
    exact hkeys.subset (List.mem_map_of_mem hm)
  have hcase : (ofJson (.str case.name)).case? = some case := case.ofName?_name
  show ofMembers? (("kind", ofJson (.str case.name)) :: ofMembers members) = _
  unfold ofMembers?
  rw [List.filter_cons, htag, if_pos (decide_eq_true rfl)]
  dsimp only
  rw [hcase, Option.bind_eq_bind, Option.bind_some, hfields]
  rfl

/-- A list of types is read in the role of one if its types are. -/
theorem types?_ofJson_arr (ts : List Ty) (h : ∀ t ∈ ts, (ofJson t.toJson).type? = some t) :
    (ofJson (.arr (Ty.allToJson ts))).types? = some ts := by
  show (ofItems (Ty.allToJson ts)).mapM type? = some ts
  rw [ofItems_eq_map, Ty.allToJson_eq_map, List.map_map]
  exact mapM_map_eq_some h

end TyPart

namespace Ty

/-- A type that is written inside of another one is read there. -/
theorem type?_ofJson_toJson (t : Ty) : (TyPart.ofJson t.toJson).type? = some t := by
  induction t using Ty.induct with
  | step t ih =>
      cases t with
      | named name args =>
          cases args with
          | nil =>
              have hfields : ["name"].Sublist TyCase.named.fieldNames := by decide
              exact TyPart.type?_ofJson_obj .named [("name", .str name)] hfields
          | cons a as =>
              have htext : (TyPart.ofJson (.str name)).text? = some name := rfl
              have hargs := TyPart.types?_ofJson_arr (a :: as) ih
              rw [toJson.eq_2 name (a :: as) (by simp), TyPart.type?_ofJson_obj .named _ (.refl _)]
              simp [TyPart.build?, TyPart.ofMembers, htext, hargs]
      | union members =>
          have hmembers := TyPart.types?_ofJson_arr members ih
          rw [toJson, TyPart.type?_ofJson_obj .union _ (.refl _)]
          simp [TyPart.build?, TyPart.ofMembers, hmembers]
      | callable params returns =>
          have hparams :=
            TyPart.types?_ofJson_arr params fun t ht => ih t (List.mem_append_left _ ht)
          have hreturns := ih returns (List.mem_append_right _ List.mem_cons_self)
          rw [toJson, TyPart.type?_ofJson_obj .callable _ (.refl _)]
          simp [TyPart.build?, TyPart.ofMembers, hparams, hreturns]
      | tuple elements =>
          have helements := TyPart.types?_ofJson_arr elements ih
          rw [toJson, TyPart.type?_ofJson_obj .tuple _ (.refl _)]
          simp [TyPart.build?, TyPart.ofMembers, helements]
      | any | nothing | unknown => rfl

/-- A list of types denotes something if each of them does. -/
theorem areReadable_allToJson (ts : List Ty) (h : ∀ t ∈ ts, t.toJson.isReadable = true) :
    areReadable (allToJson ts) = true := by
  rw [areReadable_eq_all, allToJson_eq_map, List.all_map]
  exact List.all_eq_true.2 h

/-- Every part of a type that is written denotes something. -/
theorem isReadable_toJson (t : Ty) : t.toJson.isReadable = true := by
  induction t using Ty.induct with
  | step t ih =>
      cases t with
      | named name args =>
          cases args with
          | nil => rfl
          | cons a as =>
              have hargs := areReadable_allToJson (a :: as) ih
              simp [toJson, isReadable, membersReadable, hargs]
      | union members =>
          have hmembers := areReadable_allToJson members ih
          simp [toJson, isReadable, membersReadable, hmembers]
      | callable params returns =>
          have hparams := areReadable_allToJson params fun t ht => ih t (List.mem_append_left _ ht)
          have hreturns := ih returns (List.mem_append_right _ List.mem_cons_self)
          simp [toJson, isReadable, membersReadable, hparams, hreturns]
      | tuple elements =>
          have helements := areReadable_allToJson elements ih
          simp [toJson, isReadable, membersReadable, helements]
      | any | nothing | unknown => rfl

/-- A type that is written gives its case by name. -/
theorem namesCase_toJson (t : Ty) : namesCase t.toJson = true := by
  cases t with
  | named name args => cases args <;> rfl
  | _ => rfl

/-- Types of any depth read back. -/
theorem readsBack : ReadsBack toJson ofJson? := by
  intro t
  unfold ofJson? ofPart?
  rw [if_pos t.namesCase_toJson, if_pos t.isReadable_toJson, type?_ofJson_toJson]

/-- A type that may be absent reads back, since no type is written as nothing. -/
theorem option_readsBack : ReadsBack (ofOption toJson) (nullable? ofJson?) :=
  readsBack.option rfl

end Ty

/-- Slots read back. -/
theorem Slot.readsBack : ReadsBack toJson ofJson? := by
  intro s
  cases s with
  | unresolved => rfl
  | inferredAny => rfl
  | concrete t =>
      show (Ty.ofJson? t.toJson).map concrete = some (concrete t)
      rw [Ty.readsBack t]
      rfl

/-! ## The entries of an index -/

/-- Locations read back. -/
theorem Location.readsBack : ReadsBack toJson ofJson? := ofJson?_toJson

/-- Kinds of definitions read back by their names. -/
theorem DefKind.readsBack : ReadsBack toJson ofJson? := ofName?_name

/-- Kinds of references read back by their names. -/
theorem RefKind.readsBack : ReadsBack toJson ofJson? := ofLabel?_label

/-- A text that may be absent reads back. -/
theorem Json.ReadsBack.optionalStr : ReadsBack (ofOption .str) (nullable? str?) := str.option rfl

/-- Definitions read back, with or without a type. -/
theorem Definition.readsBack : ReadsBack toJson ofJson? := by
  intro d
  have hfields : d.toJson.fields? ["name", "kind", "scope", "ty"] = some _ :=
    fields?_obj (.refl _) (by decide)
  unfold ofJson?
  rw [hfields]
  simp [optional?_cons, ReadsBack.str _, DefKind.readsBack _, Ty.option_readsBack _]

/-- The places of definitions read back. -/
theorem DefLocation.readsBack : ReadsBack toJson ofJson? := by
  intro l
  have hfields : l.toJson.fields? ["def_id", "location"] = some _ :=
    fields?_obj (.refl _) (by decide)
  unfold ofJson?
  rw [hfields]
  simp [ReadsBack.str _, Location.readsBack _]

/-- References read back, with or without what may be absent. -/
theorem Reference.readsBack : ReadsBack toJson ofJson? := by
  intro r
  have hfields : r.toJson.fields?
      ["name", "kind", "scope", "ref_scope", "target", "location", "ty"] = some _ :=
    fields?_obj (.refl _) (by decide)
  unfold ofJson?
  rw [hfields]
  simp [optional?_cons, ReadsBack.str _, ReadsBack.optionalStr _, RefKind.readsBack _,
    Location.readsBack _, Ty.option_readsBack _]

/-- Calls read back, those without arguments too. -/
theorem Funcall.readsBack : ReadsBack toJson ofJson? := by
  intro c
  have hfields : c.toJson.fields?
      ["name", "scope", "function_id", "location", "args", "return_type"] = some _ :=
    fields?_obj (.refl _) (by decide)
  unfold ofJson?
  rw [hfields]
  simp [optional?_cons, ReadsBack.str _, ReadsBack.str.list _, Location.readsBack _,
    Ty.option_readsBack _]

/-- Recorded calls read back with the types of all parameters. -/
theorem Signature.readsBack : ReadsBack toJson ofJson? := by
  intro s
  have hfields : s.toJson.fields? ["params"] = some _ := fields?_obj (.refl _) (by decide)
  unfold ofJson?
  rw [hfields]
  simp [(ReadsBack.str.pair Ty.readsBack).list _]

/-- Scopes read back with the tables of their symbols. -/
theorem Env.readsBack : ReadsBack toJson ofJson? := by
  intro e
  have hfields : e.toJson.fields? ["scope", "parent", "env", "ret"] = some _ :=
    fields?_obj (.refl _) (by decide)
  unfold ofJson?
  rw [hfields]
  simp [optional?_cons, ReadsBack.str _, ReadsBack.optionalStr _,
    SortedMap.readsBack Definition.readsBack _, Ty.option_readsBack _]

/-! ## The wire format -/

/-- Symbol indices read back, since all their tables and lists do. -/
theorem SymbolIndex.readsBack : ReadsBack toJson ofJson? := by
  intro index
  have hfields : index.toJson.fields?
      ["envs", "defs", "locs", "links", "calls", "signatures"] = some _ :=
    fields?_obj (.refl _) (by decide)
  unfold ofJson?
  rw [hfields]
  simp [SortedMap.readsBack Env.readsBack _, SortedMap.readsBack Definition.readsBack _,
    SortedMap.readsBack DefLocation.readsBack.list _, Funcall.readsBack.list _,
    (Reference.readsBack.pair Definition.readsBack).list _,
    SortedMap.readsBack Signature.readsBack.list _]

/-- The wire format loses nothing: types of any depth, slots and whole symbol indices are
decoded from what they are encoded as. -/
theorem wire_readsBack :
    (∀ t : Ty, Ty.ofJson? t.toJson = some t) ∧
      (∀ s : Slot, Slot.ofJson? s.toJson = some s) ∧
      ∀ index : SymbolIndex, SymbolIndex.ofJson? index.toJson = some index :=
  ⟨Ty.readsBack, Slot.readsBack, SymbolIndex.readsBack⟩

end TypeTrace

import ServiceGen.Declaration.TypeHint
import ServiceGen.Proofs.Json.Record

/-!
Hints are read back as they were.  A hint keeps its form when it is written: what was no native
type and no field object before is none when it is read again, and a field object brings along no
attribute that would make it a native type.
-/

namespace ServiceGen

open RecordReader

namespace Attributes

theorem ofMembers_eq {members : List (String × Json)} (hv : (Json.obj members).UniqueNames) :
    ofMembers members = ⟨members⟩ := by
  rw [Json.uniqueNames_obj] at hv
  have hcollapse : members.map (fun m => (m.1, m.2.collapse)) = members := by
    have hid : ∀ m ∈ members, (m.1, m.2.collapse) = m := fun m hm => by
      rw [Json.collapse_eq m.2 (hv.2 m hm)]
    exact (List.map_congr_left hid).trans (List.map_id members)
  calc ofMembers members
      = .ofList (members.map fun m => (m.1, m.2.collapse)) := rfl
    _ = .ofList members := by rw [hcollapse]
    _ = ⟨members⟩ := congrArg OrderedMap.mk (OrderedMap.entries_ofList hv.1)

end Attributes

namespace TypeHint

/-- What a value is offered as inside of a hint. -/
def offer (v : Json) : Offer :=
  ⟨v, fun _ => ofJson v, fun _ => modelOfJson v⟩

theorem offersOf_eq (members : List (String × Json)) :
    offersOf members = members.map fun m => (m.1, offer m.2) := by
  induction members with
  | nil => rfl
  | cons member rest ih => rw [offersOf, ih]; rfl

theorem membersOf_eq (entries : List (String × TypeHint)) :
    membersOf entries = entries.map fun e => (e.1, e.2.toJson) := by
  induction entries with
  | nil => rfl
  | cons entry rest ih => rw [membersOf, ih]; rfl

/-- The hint that is read from `v`, and whatever model is read from it, are read back. -/
structure Recoverable (v : Json) : Prop where
  unique : (ofJson v).toJson.UniqueNames
  again : ofJson (ofJson v).toJson = ofJson v
  null_of_null : (ofJson v).toJson = .null → v = .null
  model : ∀ {m}, modelOfJson v = .ok m →
    (modelToJson m).UniqueNames ∧ modelOfJson (modelToJson m) = .ok m

/-- The record consists of what values are offered as whose hints are read back. -/
def Offers (r : Record Offer) : Prop :=
  ∀ o ∈ r.parts, ∃ v, Recoverable v ∧ o = offer v

/-- The members for the parts of a field object that are no attributes. -/
def fieldMembers (f : WebField) : List (String × Json) :=
  [("field", .str f.name)] ++ member? "container" toJson f.container
    ++ member? "model" modelToJson f.model

theorem fieldToJson_eq (f : WebField) :
    fieldToJson f = .obj (fieldMembers f ++ f.attributes.entries) := by
  obtain ⟨name, container, model, attributes⟩ := f
  cases container <;> cases model <;>
    simp [fieldToJson, toJson, fieldMembers, member?, modelToJson]

theorem isNull_eq_false_of {v : Json} (h : v ≠ .null) : v.isNull = false := by
  cases v with
  | null => exact absurd rfl h
  | _ => rfl

section Fields

variable {r : Record Offer} {index : Nat}

theorem keeps_container (hr : Offers r) {o : Option TypeHint}
    (hread : (RecordReader.optional "container" (fun o : Offer =>
      .ok (if o.value.isNull then none else some (o.hint ()))) none).read r index = .ok o) :
    Keeps offer (.optional "container" (fun o : Offer =>
      .ok (if o.value.isNull then none else some (o.hint ()))) none) o ["container"]
      (member? "container" toJson o) := by
  refine .member? fun a ho => ?_
  subst ho
  rcases optional_eq_ok hread with hnone | ⟨p, hp, ha⟩
  · cases hnone
  · obtain ⟨v, hv, rfl⟩ := hr p hp
    have ha := Except.ok.inj ha
    split at ha
    · cases ha
    · rename_i hpresent
      obtain rfl : ofJson v = a := Option.some.inj ha
      have hnull : (ofJson v).toJson.isNull = false :=
        isNull_eq_false_of fun h => hpresent (hv.null_of_null h ▸ rfl)
      exact ⟨hv.unique, by simp [offer, hnull, hv.again]⟩

theorem keeps_model (hr : Offers r) {o : Option (OrderedMap TypeHint)}
    (hread : (RecordReader.optional "model" (fun o : Offer =>
      if o.value.isNull then .ok none else (o.model ()).map some) none).read r index = .ok o) :
    Keeps offer (.optional "model" (fun o : Offer =>
      if o.value.isNull then .ok none else (o.model ()).map some) none) o ["model"]
      (member? "model" modelToJson o) := by
  refine .member? fun m ho => ?_
  subst ho
  rcases optional_eq_ok hread with hnone | ⟨p, hp, hm⟩
  · cases hnone
  · obtain ⟨v, hv, rfl⟩ := hr p hp
    split at hm
    · cases hm
    · obtain ⟨m', hread, hsome⟩ := Reading.map_eq_ok_iff.mp hm
      cases hsome
      obtain ⟨hunique, hagain⟩ := hv.model hread
      exact ⟨hunique, congrArg (Except.map some) hagain⟩

theorem keeps_fieldMembers (hr : Offers r) :
    fieldReader.Every r fun around => ∀ attributes, (around attributes).attributes = attributes ∧
      Keeps offer fieldReader around fieldNames (fieldMembers (around attributes)) := by
  iterate 2 apply every_seq
  refine every_map fun _ name _ _ container hcontainer _ model hmodel attributes => ⟨rfl, ?_⟩
  have hname : Keeps offer (.required "field" fun o : Offer => Part.readText (.ofJson o.value))
      name ["field"] [("field", .str name)] := .required (Json.uniqueNames_str name) rfl
  exact (hname.map fun name container model attributes =>
      WebFieldOf.mk name container model attributes)
    |>.seq (keeps_container hr hcontainer)
    |>.seq (keeps_model hr hmodel)

end Fields

def attributeMembers (members : List (String × Json)) : List (String × Json) :=
  members.filter fun m => !fieldNames.contains m.1

theorem filterMap_offers (members : List (String × Json)) :
    (members.map fun m => (m.1, offer m.2)).filterMap (fun (name, o) =>
      if fieldNames.contains name then none else some (name, o.value)) =
        attributeMembers members := by
  rw [List.filterMap_map, attributeMembers, ← List.filterMap_eq_filter]
  refine List.filterMap_congr fun m _ => ?_
  by_cases hname : m.1 ∈ fieldNames
  · simp [hname, Option.guard]
  · simp [hname, Option.guard, offer]

theorem uniqueNames_attributeMembers {members : List (String × Json)}
    (hv : (Json.obj members).UniqueNames) : (Json.obj (attributeMembers members)).UniqueNames := by
  rw [Json.uniqueNames_obj] at hv ⊢
  exact ⟨.sublist (List.filter_sublist.map _) hv.1, fun m hm => hv.2 m (List.mem_filter.mp hm).1⟩

/-- A field object, its attributes being the members that are none of its parts. -/
theorem fieldOfOffers_eq_ok {members : List (String × Json)}
    (hv : (Json.obj members).UniqueNames) (hr : ∀ m ∈ members, Recoverable m.2) {f : WebField}
    (hread : fieldOfOffers (offersOf members) = .ok f) :
    f.attributes.entries = attributeMembers members ∧
      ∃ around, around f.attributes = f ∧
        Keeps offer fieldReader around fieldNames (fieldMembers f) := by
  rw [offersOf_eq] at hread
  obtain ⟨around, haround, hf⟩ := Fallible.bind_eq_ok_iff.mp hread
  rw [filterMap_offers, Attributes.ofMembers_eq (uniqueNames_attributeMembers hv)] at hf
  have hoffers : Offers (.named (members.map fun m => (m.1, offer m.2)) true) := by
    intro o ho
    rw [Record.parts, List.map_map] at ho
    obtain ⟨m, hm, rfl⟩ := List.mem_map.mp ho
    exact ⟨m.2, hr m hm, rfl⟩
  obtain ⟨hattributes, hkeeps⟩ := keeps_fieldMembers hoffers 0 around (run_eq_ok haround)
    ⟨attributeMembers members⟩
  cases hf
  exact ⟨congrArg OrderedMap.entries hattributes, around, congrArg around hattributes, hkeeps⟩

theorem notMem_fieldNames (members : List (String × Json)) :
    ∀ m ∈ attributeMembers members, m.1 ∉ fieldNames := by
  intro m hm
  simpa using (List.mem_filter.mp hm).2

section Written

variable {members : List (String × Json)} {f : WebField}

theorem uniqueNames_fieldToJson (hv : (Json.obj members).UniqueNames)
    (hattributes : f.attributes.entries = attributeMembers members)
    {around : Attributes → WebField}
    (hkeeps : Keeps offer fieldReader around fieldNames (fieldMembers f)) :
    (fieldToJson f).UniqueNames := by
  have hattribute := uniqueNames_attributeMembers hv
  rw [Json.uniqueNames_obj] at hattribute
  rw [fieldToJson_eq, hattributes, Json.uniqueNames_obj, List.map_append]
  refine ⟨List.nodup_append.mpr ⟨.sublist hkeeps.sublist (by simp [fieldNames]),
    hattribute.1, ?_⟩, fun m hm => (List.mem_append.mp hm).elim (hkeeps.unique m) (hattribute.2 m)⟩
  rintro name hname _ hother rfl
  obtain ⟨m, hm, rfl⟩ := List.mem_map.mp hother
  exact notMem_fieldNames members m hm (hkeeps.sublist.subset hname)

theorem fieldOfOffers_written (hv : (Json.obj members).UniqueNames)
    (hattributes : f.attributes.entries = attributeMembers members)
    {around : Attributes → WebField} (haround : around f.attributes = f)
    (hkeeps : Keeps offer fieldReader around fieldNames (fieldMembers f)) :
    fieldOfOffers (offersOf (fieldMembers f ++ f.attributes.entries)) = .ok f := by
  have hparts : ∀ m ∈ fieldMembers f, m.1 ∈ fieldNames := fun m hm => hkeeps.mem_names hm
  have hrun := hkeeps.run (by simp [fieldNames]) (Keeps.filter_offers_left (· ∈ fieldNames)
    (fun m hm => decide_eq_true (hparts m hm))
    (fun m hm => decide_eq_false (notMem_fieldNames members m hm)))
  have hkept : attributeMembers (fieldMembers f ++ attributeMembers members) =
      attributeMembers members := by
    rw [attributeMembers, List.filter_append, List.filter_eq_nil_iff.mpr (by simpa using hparts),
      List.nil_append, List.filter_eq_self.mpr (by simpa using notMem_fieldNames members)]
  have hback : (⟨attributeMembers members⟩ : Attributes) = f.attributes :=
    congrArg OrderedMap.mk hattributes.symm
  rw [hattributes, offersOf_eq, fieldOfOffers, hrun, filterMap_offers, hkept,
    Attributes.ofMembers_eq (uniqueNames_attributeMembers hv), hback]
  exact congrArg Except.ok haround

theorem nativeOfMembers_congr {members' : List (String × Json)}
    (h : members.filter (·.1 = "builtin") = members'.filter (·.1 = "builtin"))
    {type : NativeType} (hread : nativeOfMembers members = .ok type) :
    nativeOfMembers members' = .ok type := by
  have hbuiltin : (Record.named members true).field 0 "builtin"
      (fun v => NativeType.ofJson (.ofJson v)) (.error ⟨_, .mismatch⟩) = .ok type :=
    run_eq_ok hread
  obtain ⟨v, hfilter, htype⟩ := Record.filter_eq_singleton_of_field hbuiltin
  rw [h] at hfilter
  have hfield : ∀ fault, (Record.named members' true).field 0 "builtin"
      (fun v => NativeType.ofJson (.ofJson v)) (.error fault) = .ok type := fun fault =>
    Record.field_of_filter_eq_singleton hfilter true 0 (.error fault) htype
  simp only [nativeOfMembers, RecordReader.run, RecordReader.required, hfield]
  rfl

/-- The attributes are all that can make an object a native type. -/
theorem filter_builtin_written
    (hattributes : f.attributes.entries = attributeMembers members)
    (hparts : ∀ m ∈ fieldMembers f, m.1 ∈ fieldNames) :
    (fieldMembers f ++ f.attributes.entries).filter (·.1 = "builtin") =
      members.filter (·.1 = "builtin") := by
  have hnone : (fieldMembers f).filter (·.1 = "builtin") = [] := by
    refine List.filter_eq_nil_iff.mpr fun m hm heq => ?_
    have hmem := hparts m hm
    rw [of_decide_eq_true heq] at hmem
    simp [fieldNames] at hmem
  rw [hattributes, List.filter_append, hnone, List.nil_append, attributeMembers, List.filter_filter]
  refine List.filter_congr fun m _ => ?_
  by_cases hname : m.1 = "builtin"
  · simp [hname, fieldNames]
  · simp [hname]

end Written

theorem ofJson_of_native {members : List (String × Json)} {type : NativeType}
    (hnative : nativeOfMembers members = .ok type) : ofJson (.obj members) = native type := by
  rw [ofJson, hnative]

theorem ofJson_of_field {members : List (String × Json)} {e : ReadError} {f : WebField}
    (hnative : nativeOfMembers members = .error e)
    (hfield : fieldOfOffers (offersOf members) = .ok f) : ofJson (.obj members) = field f := by
  rw [ofJson, hnative, hfield]

theorem recoverable_other {v : Json} (hv : v.UniqueNames) (hread : ofJson v = other v)
    (hmodel : ∀ {m}, modelOfJson v = .ok m →
      (modelToJson m).UniqueNames ∧ modelOfJson (modelToJson m) = .ok m) : Recoverable v := by
  have hwritten : (ofJson v).toJson = v := by rw [hread, toJson]
  exact ⟨hwritten.symm ▸ hv, congrArg ofJson hwritten, fun hnull => hwritten ▸ hnull, hmodel⟩

/-- A model keeps the names that it is written with. -/
theorem names_of_modelOfJson {members : List (String × Json)} {model : OrderedMap TypeHint}
    (hread : modelOfJson (.obj members) = .ok model) :
    (membersOf model.entries).map (·.1) = members.map (·.1) := by
  rw [modelOfJson, offersOf_eq] at hread
  obtain ⟨entries, hentries, rfl⟩ := Reading.map_eq_ok_iff.mp hread
  have hnames := (readEntries_eq_ok hentries).1
  rw [List.map_map] at hnames
  rw [membersOf_eq, List.map_map]
  exact hnames

theorem recovers_model {members : List (String × Json)} (hv : (Json.obj members).UniqueNames)
    (hr : ∀ m ∈ members, Recoverable m.2) {model : OrderedMap TypeHint}
    (hread : modelOfJson (.obj members) = .ok model) :
    (modelToJson model).UniqueNames ∧ modelOfJson (modelToJson model) = .ok model := by
  rw [modelOfJson, offersOf_eq] at hread
  obtain ⟨entries, hentries, rfl⟩ := Reading.map_eq_ok_iff.mp hread
  obtain ⟨hunique, hwritten⟩ : (Json.obj (entries.map fun e => (e.1, e.2.toJson))).UniqueNames ∧
      readEntries (fun o : Offer => .ok (o.hint ())) []
        ((entries.map fun e => (e.1, e.2.toJson)).map fun m => (m.1, offer m.2)) = .ok entries := by
    refine readEntries_again hv ?_ hentries
    rintro m hm _ ⟨⟩
    exact ⟨(hr m hm).unique, congrArg Except.ok (hr m hm).again⟩
  rw [modelToJson, membersOf_eq]
  refine ⟨hunique, ?_⟩
  rw [modelOfJson, offersOf_eq]
  exact congrArg (Except.map OrderedMap.mk) hwritten

theorem recoverable_obj {members : List (String × Json)} (hv : (Json.obj members).UniqueNames)
    (hr : ∀ m ∈ members, Recoverable m.2) : Recoverable (.obj members) := by
  cases hnative : nativeOfMembers members with
  | ok type =>
      have hread := ofJson_of_native hnative
      have hagain : nativeOfMembers [("builtin", .str type.word)] = .ok type := by
        cases type <;> rfl
      refine ⟨?_, ?_, ?_, recovers_model hv hr⟩
      · rw [hread]
        simp [toJson]
      · rw [hread]
        exact ofJson_of_native hagain
      · rw [hread]
        nofun
  | error e =>
      cases hfield : fieldOfOffers (offersOf members) with
      | ok f =>
          have hread := ofJson_of_field hnative hfield
          obtain ⟨hattributes, around, haround, hkeeps⟩ := fieldOfOffers_eq_ok hv hr hfield
          have hbuiltin := filter_builtin_written hattributes fun m => hkeeps.mem_names
          have hwritten : (ofJson (.obj members)).toJson =
              .obj (fieldMembers f ++ f.attributes.entries) := by
            rw [hread]
            exact fieldToJson_eq f
          refine ⟨?_, ?_, ?_, recovers_model hv hr⟩
          · rw [hread]
            exact uniqueNames_fieldToJson hv hattributes hkeeps
          · rw [hwritten, hread]
            -- what is written is no native type, since what was read would have been one
            cases hagain : nativeOfMembers (fieldMembers f ++ f.attributes.entries) with
            | ok type => cases hnative.symm.trans (nativeOfMembers_congr hbuiltin hagain)
            | error e' =>
                exact ofJson_of_field hagain
                  (fieldOfOffers_written hv hattributes haround hkeeps)
          · rw [hwritten]
            nofun
      | error e' =>
          refine recoverable_other hv ?_ (recovers_model hv hr)
          rw [ofJson, hnative, hfield, Json.collapse_eq _ hv]

theorem recoverable (v : Json) : v.UniqueNames → Recoverable v := by
  induction v using Json.induction_members with
  | obj members ih =>
      intro hv
      exact recoverable_obj hv fun m hm => ih m hm (((Json.uniqueNames_obj members).mp hv).2 m hm)
  | other v hobj =>
      intro hv
      cases v with
      | obj members => exact absurd rfl (hobj members)
      | str s => exact ⟨hv, rfl, nofun, nofun⟩
      | _ => exact recoverable_other hv (by rw [ofJson, Json.collapse_eq _ hv] <;> nofun) nofun

end TypeHint

end ServiceGen

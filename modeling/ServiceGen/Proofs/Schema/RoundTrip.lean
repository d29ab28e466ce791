import ServiceGen.Proofs.Json.Record
import ServiceGen.Schema.Service

/-!
Types are read back as they were.  A type is traced to the notes and the components it was read
from; what is written for these is told apart by name when it is read again.
-/

namespace ServiceGen

open RecordReader

namespace Column

theorem keeps_flag (name : String) (o : Option Bool) (held : Bool) :
    Keeps (Part.offered held) (.optional name readFlag none) o [name] (member? name .bool o) :=
  .member? fun b _ => ⟨Json.uniqueNames_bool b, by
    rw [readFlag, Part.readAny_offered held (Json.uniqueNames_bool b)]
    rfl⟩

/-- A length is written as the integer that it is. -/
theorem member?_length (length : Option Nat) :
    member? "length" (fun n : Int => .num (.int n)) (do return ↑(← length)) =
      member? "length" (fun n : Nat => .num (.int n)) length := by
  cases length <;> rfl

theorem roundTrips : RoundTrips ofJson toJson := by
  refine .record
    (fun c => by rw [toJson, member?_length])
    (by simp : ["primary_key", "nullable", "unique", "index", "foreign", "length",
      "type_name"].Nodup) fun hr held => ?_
  iterate 6 apply every_seq
  refine every_map fun _ primaryKey _ _ nullable _ _ unique _ _ index _ _ foreign hforeign
    _ length hlength _ typeName htypeName => ?_
  exact ((keeps_flag "primary_key" primaryKey held).map Column.mk)
    |>.seq (keeps_flag "nullable" nullable held)
    |>.seq (keeps_flag "unique" unique held)
    |>.seq (keeps_flag "index" index held)
    |>.seq (roundTrips_text.keeps_member? hr hforeign held)
    |>.seq ((roundTrips_nat _).keeps_member? hr hlength held)
    |>.seq (roundTrips_text.keeps_member? hr htypeName held)

end Column

namespace Constraints

theorem roundTrips : RoundTrips ofJson toJson := by
  refine .record (fun _ => rfl)
    (by simp : ["minimum", "maximum", "min_length", "max_length", "min_items", "max_items",
      "must_true", "must_false"].Nodup) fun hr held => ?_
  iterate 7 apply every_seq
  refine every_map fun _ minimum hminimum _ maximum hmaximum _ minLength hminLength
    _ maxLength hmaxLength _ minItems hminItems _ maxItems hmaxItems _ mustTrue hmustTrue
    _ mustFalse hmustFalse => ?_
  exact ((roundTrips_real.keeps_member? hr hminimum held).map Constraints.mk)
    |>.seq (roundTrips_real.keeps_member? hr hmaximum held)
    |>.seq ((roundTrips_nat _).keeps_member? hr hminLength held)
    |>.seq ((roundTrips_nat _).keeps_member? hr hmaxLength held)
    |>.seq ((roundTrips_nat _).keeps_member? hr hminItems held)
    |>.seq ((roundTrips_nat _).keeps_member? hr hmaxItems held)
    |>.seq (roundTrips_bool.keeps_member? hr hmustTrue held)
    |>.seq (roundTrips_bool.keeps_member? hr hmustFalse held)

end Constraints

namespace Location

theorem recovers (l : Location) : Recovers ofJson toJson l :=
  recovers_word (by cases l <;> rfl)

end Location

namespace DataType

/-- What a value is offered as; `inside` tells whether what is read from it has been taken in. -/
def offer (held inside : Bool) (v : Json) : Offer :=
  ⟨.offered held v, fun _ => ofJson (.offered inside v), fun _ => fieldsOfJson (.offered inside v)⟩

theorem offersOf_ofMembers (held : Bool) (members : List (String × Json)) :
    offersOf held (Json.Tree.ofMembers members) =
      members.map fun m => (m.1, offer held true m.2) := by
  induction members with
  | nil => rfl
  | cons member rest ih => rw [Json.Tree.ofMembers, offersOf, ih]; rfl

theorem entriesOf_ofMembers (held : Bool) (members : List (String × Json)) :
    entriesOf held (Json.Tree.ofMembers members) =
      members.map fun m => (m.1, offer held held m.2) := by
  induction members with
  | nil => rfl
  | cons member rest ih => rw [Json.Tree.ofMembers, entriesOf, ih]; rfl

theorem ofJson_obj (held : Bool) (members : List (String × Json)) :
    ofJson (.offered held (.obj members)) =
      ofOffers (members.map fun m => (m.1, offer held true m.2)) true := by
  rw [← offersOf_ofMembers]
  rfl

theorem fieldsOfJson_obj (held : Bool) (members : List (String × Json)) :
    fieldsOfJson (.offered held (.obj members)) =
      (readEntries (fun o => o.type ()) []
        (members.map fun m => (m.1, offer held held m.2))).map .mk := by
  rw [← entriesOf_ofMembers]
  cases hread : readEntries (fun o => o.type ()) [] (entriesOf held
    (Json.Tree.ofMembers members)) <;>
    simp [fieldsOfJson, Part.offered, Json.Tree.ofJson, fieldsOfTree, hread, Except.map, bind,
      Except.bind, Part.finish]

theorem fieldMembers_eq (entries : List (String × DataType)) :
    fieldMembers entries = entries.map fun e => (e.1, e.2.toJson) := by
  induction entries with
  | nil => rfl
  | cons entry rest ih => rw [fieldMembers, ih]; rfl

/-- Whatever type or named types are read from `v` are recovered. -/
structure Recoverable (v : Json) : Prop where
  type : ∀ {held t}, ofJson (.offered held v) = .ok t → Recovers ofJson toJson t
  fields : ∀ {held fs}, fieldsOfJson (.offered held v) = .ok fs →
    Recovers fieldsOfJson fieldsToJson fs

/-- The record consists of what values without repeated names are offered as, and all that can be
read from these is recovered. -/
def Offers (r : Record Offer) : Prop :=
  ∀ o ∈ r.parts, ∃ held v, v.UniqueNames ∧ Recoverable v ∧ o = offer held true v

theorem Offers.plain {r : Record Offer} (hr : Offers r) {o : Offer} (ho : o ∈ r.parts) :
    o.part.Plain := by
  obtain ⟨held, v, hv, -, rfl⟩ := hr o ho
  exact Part.plain_offered held hv

section Notes

variable {r : Record Offer} {name : String} {index : Nat}

theorem keeps_member? (hr : Offers r) {α : Type} {read : Part → Reading α} {write : α → Json}
    (h : RoundTrips read write) {o : Option α}
    (hread : (RecordReader.optional name (fun o : Offer => o.part.readOptional read) none).read
      r index = .ok o) (held : Bool) :
    Keeps (offer held true) (.optional name (fun o : Offer => o.part.readOptional read) none) o
      [name] (member? name write o) := by
  refine .member? fun a ho => ?_
  subst ho
  rcases optional_eq_ok hread with hnone | ⟨p, hp, ha⟩
  · cases hnone
  · obtain ⟨hrecovers, hnull⟩ := h.recovers_some (hr.plain hp) ha
    exact ⟨hrecovers.unique, readOptional_offered hnull (hrecovers.reads held)⟩

theorem keeps_description (description : String) (held : Bool) :
    Keeps (offer held true) (.optional "description" (fun o : Offer => o.part.readText) "")
      description ["description"]
      (if description.isEmpty then [] else [("description", .str description)]) :=
  .unlessDefault (fun hempty => String.isEmpty_iff.mp hempty)
    fun _ => ⟨Json.uniqueNames_str _, rfl⟩

theorem keeps_requiredFlag (required : Bool) (held : Bool) :
    Keeps (offer held true) (.optional "required" (fun o : Offer => o.part.readBool) false)
      required ["required"] (if required then [("required", .bool true)] else []) := by
  cases required with
  | false => exact .leftOut _ _ _
  | true =>
      refine .optional (Json.uniqueNames_bool true) ?_ false
      rfl

theorem keeps_source (source : Location) (held : Bool) :
    Keeps (offer held true) (.optional "source" (fun o : Offer => Location.ofJson o.part) .unknown)
      source ["source"] (if source = .unknown then [] else [("source", source.toJson)]) :=
  .unlessDefault id fun _ =>
    ⟨(Location.recovers source).unique, (Location.recovers source).reads held⟩

theorem keeps_constraints (hr : Offers r) {c : Constraints}
    (hread : (RecordReader.optional "constraints" (fun o : Offer => Constraints.ofJson o.part)
      Constraints.none).read r index = .ok c) (held : Bool) :
    Keeps (offer held true) (.optional "constraints" (fun o : Offer => Constraints.ofJson o.part)
      Constraints.none) c ["constraints"]
      (if c.isNone then [] else [("constraints", c.toJson)]) := by
  refine .unlessDefault (fun hnone => by simpa [Constraints.isNone] using hnone) fun hsome => ?_
  rcases optional_eq_ok hread with rfl | ⟨p, hp, hc⟩
  · exact absurd rfl hsome
  · have hrecovers := Constraints.roundTrips.recovers (hr.plain hp) hc
    exact ⟨hrecovers.unique, hrecovers.reads held⟩

theorem keeps_notes (hr : Offers r) (held : Bool) :
    notesReader.Every r fun note => ∀ kind, (note kind).kind = kind ∧
      Keeps (offer held true) notesReader note noteNames (note kind).noteMembers := by
  iterate 5 apply every_seq
  refine every_map fun _ description _ _ required _ _ default hdefault _ source _ _ column hcolumn
    _ constraints hconstraints kind => ⟨rfl, ?_⟩
  exact ((keeps_description description held).map
      fun description required default source column constraints kind =>
        DataType.mk kind description required default source column constraints)
    |>.seq (keeps_requiredFlag required held)
    |>.seq (keeps_member? hr roundTrips_any hdefault held)
    |>.seq (keeps_source source held)
    |>.seq (keeps_member? hr Column.roundTrips hcolumn held)
    |>.seq (keeps_constraints hr hconstraints held)

end Notes

/-- The members for the components of a kind. -/
def components : Kind DataType → List (String × Json)
  | .void | .scalar _ => []
  | .list element => [("elem", element.toJson)]
  | .dict fields => [("fields", fieldsToJson fields)]
  | .enum name underlying members =>
      member? "name" .str name ++ [("underlying", underlying.toJson)]
        ++ [("members", fieldsToJson members)]

/-- The names that components may have. -/
def componentNames : List String :=
  ["elem", "fields", "name", "underlying", "members"]

theorem kindMembers_eq (t : DataType) :
    t.kindMembers = ("type", .str t.kindWord) :: components t.kind := by
  obtain ⟨kind, _, _, _, _, _, _⟩ := t
  cases kind <;> simp [kindMembers, kindWord, components, toJson, fieldsToJson]

/-- The reader for the kind gives it of its components again. -/
def KeepsKind (held : Bool) (kind : Kind DataType) : Prop :=
  ∃ names, names.Sublist componentNames ∧
    Keeps (offer held true) (kindReader (ofKind kind).kindWord) kind names (components kind)

section Kinds

variable {r : Record Offer} {name : String} {index : Nat}

theorem keeps_type (hr : Offers r) {t : DataType}
    (hread : (RecordReader.required name (fun o : Offer => o.type ())).read r index = .ok t)
    (held : Bool) :
    Keeps (offer held true) (.required name (fun o : Offer => o.type ())) t [name]
      [(name, t.toJson)] := by
  obtain ⟨p, hp, ht⟩ := required_eq_ok hread
  obtain ⟨_, v, -, hv, rfl⟩ := hr p hp
  have hrecovers := hv.type ht
  exact .required hrecovers.unique (hrecovers.reads true)

theorem recovers_noFields : Recovers fieldsOfJson fieldsToJson .empty :=
  ⟨by simp [fieldsToJson, fieldMembers, OrderedMap.empty], fun _ => rfl⟩

theorem recovers_fields (hr : Offers r) {o : Offer} (ho : o ∈ r.parts) {fields : Fields}
    (hread : o.fields () = .ok fields) : Recovers fieldsOfJson fieldsToJson fields := by
  obtain ⟨_, v, -, hv, rfl⟩ := hr o ho
  exact hv.fields hread

theorem keeps_dictFields {fields : Fields}
    (hfields : Recovers fieldsOfJson fieldsToJson fields) (held : Bool) :
    Keeps (offer held true) (.optional "fields" (fun o : Offer => o.fields ()) .empty) fields
      ["fields"] [("fields", fieldsToJson fields)] := by
  refine .optional hfields.unique ?_ _
  exact hfields.reads true

theorem keepsKind_leaf {kind : Kind DataType} (hcomponents : components kind = [])
    (hreader : kindReader (ofKind kind).kindWord = pure kind) (held : Bool) :
    (pure kind : RecordReader Offer (Kind DataType)).Every r (KeepsKind held) := by
  rintro _ _ ⟨⟩
  refine ⟨[], List.nil_sublist _, ?_⟩
  rw [hreader, hcomponents]
  exact .pure kind

theorem keepsKind_of_read (hr : Offers r) (held : Bool) {word : String}
    (hword : word ∈ kindWords) : (kindReader word).Every r (KeepsKind held) := by
  simp only [kindWords, List.mem_cons, List.not_mem_nil, or_false] at hword
  -- five words without components, then lists, dicts and enumerations
  rcases hword with rfl | rfl | rfl | rfl | rfl | rfl | rfl | rfl
  · exact keepsKind_leaf rfl rfl held
  · exact keepsKind_leaf rfl rfl held
  · exact keepsKind_leaf rfl rfl held
  · exact keepsKind_leaf rfl rfl held
  · exact keepsKind_leaf rfl rfl held
  · refine every_map fun _ element helement => ⟨_, ?_, (keeps_type hr helement held).map Kind.list⟩
    simp [componentNames]
  · refine every_map fun _ fields hfields => ?_
    have hrecovers : Recovers fieldsOfJson fieldsToJson fields := by
      rcases optional_eq_ok hfields with rfl | ⟨o, ho, hread⟩
      · exact recovers_noFields
      · exact recovers_fields hr ho hread
    exact ⟨["fields"], by simp [componentNames], (keeps_dictFields hrecovers held).map Kind.dict⟩
  · iterate 2 apply every_seq
    refine every_map fun _ name hname _ underlying hunderlying _ members hmembers => ?_
    obtain ⟨o, ho, hread⟩ := required_eq_ok hmembers
    have hrecovers := recovers_fields hr ho hread
    refine ⟨["name"] ++ ["underlying"] ++ ["members"], by simp [componentNames],
      ((keeps_member? hr roundTrips_text hname held).map Kind.enum
        |>.seq (keeps_type hr hunderlying held)).seq ?_⟩
    exact .required hrecovers.unique (hrecovers.reads true)

end Kinds

theorem mem_of_readTag {words : List String} {p : Part} {word : String}
    (hread : p.readTag words = .ok word) : word ∈ words := by
  unfold Part.readTag at hread
  split at hread
  · split at hread
    · rename_i hword
      cases hread
      exact List.contains_iff_mem.mp hword
    · cases hread
  · split at hread
    · rename_i hword
      cases hread
      split at hword
      · exact List.mem_of_getElem? hword
      · cases hword
    · cases hread
  · cases hread

theorem offers_filter {offers : List (String × Offer)} {complete : Bool}
    (hoffers : Offers (.named offers complete)) (keep : String × Offer → Bool) (complete' : Bool) :
    Offers (.named (offers.filter keep) complete') := by
  intro o ho
  obtain ⟨offer, hoffer, rfl⟩ := List.mem_map.mp ho
  exact hoffers _ (List.mem_map_of_mem (List.mem_filter.mp hoffer).1)

theorem keepsKind_of_readKind {offers : List (String × Offer)} {complete : Bool}
    (hoffers : Offers (.named offers complete)) {kind : Kind DataType}
    (hread : readKind offers = .ok kind) (held : Bool) : KeepsKind held kind := by
  unfold readKind at hread
  split at hread
  · obtain ⟨word, hword, hkind⟩ := Fallible.bind_eq_ok_iff.mp hread
    exact keepsKind_of_read (offers_filter hoffers _ true) held (mem_of_readTag hword) 0 kind
      (run_eq_ok hkind)
  · cases hread

theorem kindWord_mem (t : DataType) : t.kindWord ∈ kindWords := by
  unfold kindWord
  split <;> simp [kindWords]
  rename_i s _
  cases s <;> simp [Scalar.word]

theorem tag_ne_of_mem_components {names : List String} {kind : Kind DataType} {held : Bool}
    (hsublist : names.Sublist componentNames)
    (hkeeps : Keeps (offer held true) (kindReader (ofKind kind).kindWord) kind names
      (components kind)) {m : String × Json} (hm : m ∈ components kind) :
    m.1 ≠ "type" ∧ m.1 ∉ noteNames := by
  have hmem := hsublist.subset (hkeeps.mem_names hm)
  simp only [componentNames, List.mem_cons, List.not_mem_nil, or_false] at hmem
  rcases hmem with h | h | h | h | h <;> simp [h, noteNames]

theorem readKind_written {held : Bool} {kind : Kind DataType} (hkind : KeepsKind held kind) :
    readKind ((("type", Json.str (ofKind kind).kindWord) :: components kind).map
      fun m => (m.1, offer held true m.2)) = .ok kind := by
  obtain ⟨names, hsublist, hkeeps⟩ := hkind
  have htype : ∀ m ∈ components kind, m.1 ≠ "type" := fun m hm =>
    (tag_ne_of_mem_components hsublist hkeeps hm).1
  obtain ⟨place, hoccurrences⟩ := Keeps.occurrences_tagged (offer held true) htype
    (.str (ofKind kind).kindWord)
  have htag : (offer held true (.str (ofKind kind).kindWord)).part.readTag kindWords =
      .ok (ofKind kind).kindWord := by
    simp [offer, Part.readTag, Part.offered, Json.Tree.ofJson, kindWord_mem]
  have hnodup : names.Nodup := .sublist hsublist (by simp [componentNames])
  rw [readKind, hoccurrences]
  simp only [htag]
  rw [Keeps.filter_tagged htype]
  exact hkeeps.run_members hnodup

theorem forM_hold (held : Bool) (members : List (String × Json)) :
    (members.map fun m => (m.1, offer held true m.2)).forM
      (fun entry => do discard entry.2.part.hold) = (.ok () : Reading Unit) := by
  rw [List.forM_eq_forM]
  induction members with
  | nil => rfl
  | cons member rest ih =>
      have hhold : (discard (offer held true member.2).part.hold : Reading Unit) = .ok () := by
        rw [offer, Part.hold_offered]
        rfl
      simp only [List.map_cons, List.forM_cons, hhold, ih]
      rfl

section Written

variable {held : Bool} {t : DataType} {note : Kind DataType → DataType}

theorem kindMembers_names (hkind : KeepsKind held t.kind) :
    (t.kindMembers.map (·.1)).Sublist ("type" :: componentNames) := by
  obtain ⟨names, hsublist, hkeeps⟩ := hkind
  rw [kindMembers_eq, List.map_cons]
  exact (hkeeps.sublist.trans hsublist).cons_cons "type"

theorem kindMembers_unique (hkind : KeepsKind held t.kind) :
    ∀ m ∈ t.kindMembers, m.2.UniqueNames := by
  obtain ⟨names, hsublist, hkeeps⟩ := hkind
  rw [kindMembers_eq]
  exact List.forall_mem_cons.mpr ⟨Json.uniqueNames_str _, hkeeps.unique⟩

theorem uniqueNames_toJson (hkind : KeepsKind held t.kind)
    (hnotes : Keeps (offer held true) notesReader note noteNames t.noteMembers) :
    t.toJson.UniqueNames := by
  have hnodup : (("type" :: componentNames) ++ noteNames).Nodup := by
    simp [componentNames, noteNames]
  rw [toJson, Json.uniqueNames_obj, List.map_append]
  exact ⟨.sublist ((kindMembers_names hkind).append hnotes.sublist) hnodup, fun m hm =>
    (List.mem_append.mp hm).elim (kindMembers_unique hkind m) (hnotes.unique m)⟩

theorem kindMembers_not_notes (hkind : KeepsKind held t.kind) :
    ∀ m ∈ t.kindMembers, m.1 ∉ noteNames := by
  intro m hm hnote
  have hmem := (kindMembers_names hkind).subset (List.mem_map_of_mem hm)
  have hdisjoint : ∀ name ∈ "type" :: componentNames, name ∉ noteNames := by
    simp [componentNames, noteNames]
  exact hdisjoint m.1 hmem hnote

/-- What is not a note is offered to the reader of the kind. -/
theorem filter_not_notes (hkind : KeepsKind held t.kind)
    (hnotes : Keeps (offer held true) notesReader note noteNames t.noteMembers) :
    ((t.kindMembers ++ t.noteMembers).map fun m => (m.1, offer held true m.2)).filter
      (fun (name, _) => !noteNames.contains name) =
        t.kindMembers.map fun m => (m.1, offer held true m.2) :=
  Keeps.filter_offers_left (!noteNames.contains ·)
    (fun m hm => by simpa using kindMembers_not_notes hkind m hm)
    (fun m hm => by simpa using hnotes.mem_names hm)

theorem ofJson_toJson (hkind : KeepsKind held t.kind) (hnote : note t.kind = t)
    (hnotes : Keeps (offer held true) notesReader note noteNames t.noteMembers) :
    ofJson (.offered held t.toJson) = .ok t := by
  have hreadNotes := hnotes.run (by simp [noteNames]) (Keeps.filter_offers_right (· ∈ noteNames)
    (fun m hm => decide_eq_false (kindMembers_not_notes hkind m hm))
    (fun m hm => decide_eq_true (hnotes.mem_names hm)))
  have hreadKind : readKind (t.kindMembers.map fun m => (m.1, offer held true m.2)) =
      .ok t.kind := kindMembers_eq t ▸ readKind_written hkind
  rw [toJson, ofJson_obj, ofOffers, hreadNotes]
  simp only [filter_not_notes hkind hnotes, forM_hold, hreadKind]
  exact congrArg Except.ok hnote

end Written

/-- A type is recovered when what can be read in its members is. -/
theorem recovers_of_ofOffers {offers : List (String × Offer)} {complete : Bool}
    (hoffers : Offers (.named offers complete)) {t : DataType}
    (hread : ofOffers offers complete = .ok t) : Recovers ofJson toJson t := by
  obtain ⟨note, hnote, hread⟩ := Fallible.bind_eq_ok_iff.mp hread
  obtain ⟨⟨⟩, -, hread⟩ := Fallible.bind_eq_ok_iff.mp hread
  obtain ⟨kind, hkind, ht⟩ := Fallible.bind_eq_ok_iff.mp hread
  cases ht
  have hnotes := fun held => keeps_notes hoffers held 0 note (run_eq_ok hnote) kind
  have hkeeps : ∀ held, KeepsKind held (note kind).kind := by
    intro held
    rw [(hnotes held).1]
    exact keepsKind_of_readKind (offers_filter hoffers _ complete) hkind held
  exact ⟨uniqueNames_toJson (hkeeps true) (hnotes true).2, fun held =>
    ofJson_toJson (hkeeps held) (congrArg note (hnotes held).1) (hnotes held).2⟩

theorem recovers_of_fieldsOfJson {members : List (String × Json)}
    (hunique : (Json.obj members).UniqueNames) (hmembers : ∀ m ∈ members, Recoverable m.2)
    {held : Bool} {fields : Fields}
    (hread : fieldsOfJson (.offered held (.obj members)) = .ok fields) :
    Recovers fieldsOfJson fieldsToJson fields := by
  rw [fieldsOfJson_obj] at hread
  obtain ⟨entries, hentries, rfl⟩ := Reading.map_eq_ok_iff.mp hread
  have hagain : ∀ again, (Json.obj (entries.map fun e => (e.1, e.2.toJson))).UniqueNames ∧
      readEntries (fun o : Offer => o.type ()) [] ((entries.map fun e => (e.1, e.2.toJson)).map
        fun m => (m.1, offer again again m.2)) = .ok entries := by
    refine fun again => readEntries_again hunique (fun m hm t ht => ?_) hentries
    have hrecovers := (hmembers m hm).type ht
    exact ⟨hrecovers.unique, hrecovers.reads again⟩
  refine ⟨?_, fun again => ?_⟩
  · rw [fieldsToJson, fieldMembers_eq]
    exact (hagain true).1
  · rw [fieldsToJson, fieldMembers_eq, fieldsOfJson_obj]
    exact congrArg (Except.map OrderedMap.mk) (hagain again).2

theorem recoverable (v : Json) : v.UniqueNames → Recoverable v := by
  -- types and fields stand in the members of objects, so the induction is on these
  induction v using Json.induction_members with
  | obj members ih =>
      intro hv
      have hmembers := ((Json.uniqueNames_obj members).mp hv).2
      have hrecoverable : ∀ m ∈ members, Recoverable m.2 := fun m hm => ih m hm (hmembers m hm)
      refine ⟨fun {held t} hread => ?_, recovers_of_fieldsOfJson hv hrecoverable⟩
      rw [ofJson_obj] at hread
      refine recovers_of_ofOffers (fun o ho => ?_) hread
      rw [Record.parts, List.map_map] at ho
      obtain ⟨m, hm, rfl⟩ := List.mem_map.mp ho
      exact ⟨held, m.2, hmembers m hm, hrecoverable m hm, rfl⟩
  | other v hv =>
      cases v with
      | obj members => exact absurd rfl (hv members)
      | _ =>
          refine fun _ => ⟨fun hread => ?_, fun hread => ?_⟩
          · cases hread
          · cases hread

theorem roundTrips : RoundTrips ofJson toJson where
  recovers hp hread := by
    obtain ⟨v, held, hv, rfl⟩ := hp
    exact (recoverable v hv).type hread
  null_of_null _ _ := nofun

theorem roundTrips_fields : RoundTrips fieldsOfJson fieldsToJson where
  recovers hp hread := by
    obtain ⟨v, held, hv, rfl⟩ := hp
    exact (recoverable v hv).fields hread
  null_of_null _ _ := nofun

end DataType

namespace WebNamespace

theorem roundTrips : RoundTrips ofJson toJson := by
  refine .record (fun _ => rfl)
    (by simp : ["name", "description", "urls", "params"].Nodup) fun hr held => ?_
  iterate 3 apply every_seq
  refine every_map fun _ name hname _ description hdescription _ urls hurls _ params hparams => ?_
  exact ((roundTrips_text.keeps_required hr hname held).map WebNamespace.mk)
    |>.seq (roundTrips_text.keeps_optional hr hdescription (recovers_text "") held)
    |>.seq (roundTrips_text.list.keeps_optional hr hurls recovers_noItems held)
    |>.seq (DataType.roundTrips_fields.keeps_optional hr hparams DataType.recovers_noFields held)

end WebNamespace

end ServiceGen

import ServiceGen.Declaration.DocumentJson
import ServiceGen.Proofs.Declaration.HintRoundTrip
import ServiceGen.Proofs.Schema.RoundTrip

/-!
Declaration documents are read back as they were.  The main statement is
`Document.written_reads_back`.
-/

namespace ServiceGen

open RecordReader

namespace Attributes

theorem ofJson_obj (held : Bool) {members : List (String × Json)}
    (hv : (Json.obj members).UniqueNames) :
    ofJson (.offered held (.obj members)) = .ok ⟨members⟩ := by
  rw [ofJson, Part.readWritten_offered, ← ofMembers_eq hv]
  rfl

theorem eq_obj_of_ofJson {held : Bool} {v : Json} {a : Attributes} (hv : v.UniqueNames)
    (hread : ofJson (.offered held v) = .ok a) : v = a.toJson := by
  rw [ofJson, Part.readWritten_offered] at hread
  cases v with
  | obj members =>
      rw [← Except.ok.inj hread, ofMembers_eq hv]
      rfl
  | _ => cases hread

theorem roundTrips : RoundTrips ofJson toJson where
  recovers {p a} hp hread := by
    obtain ⟨v, held, hv, rfl⟩ := hp
    obtain rfl := eq_obj_of_ofJson hv hread
    exact ⟨hv, fun again => ofJson_obj again hv⟩
  null_of_null _ _ := nofun

end Attributes

namespace TypeHint

theorem roundTrips : RoundTrips (fun p => ofJson <$> p.readWritten) toJson where
  recovers {p a} hp hread := by
    obtain ⟨v, held, hv, rfl⟩ := hp
    rw [Part.readWritten_offered] at hread
    obtain rfl : ofJson v = a := Except.ok.inj hread
    refine ⟨(recoverable v hv).unique, fun again => ?_⟩
    rw [Part.readWritten_offered]
    exact congrArg Except.ok (recoverable v hv).again
  null_of_null {p a} hp hread hnull := by
    obtain ⟨v, held, hv, rfl⟩ := hp
    rw [Part.readWritten_offered] at hread
    obtain rfl : ofJson v = a := Except.ok.inj hread
    exact congrArg Json.Tree.ofJson ((recoverable v hv).null_of_null hnull)

theorem recovers_field {v : Json} (hv : v.UniqueNames) {f : WebField}
    (hread : fieldOfJson v = .ok f) :
    (fieldToJson f).UniqueNames ∧ fieldOfJson (fieldToJson f) = .ok f := by
  cases v with
  | obj members =>
      have hmembers := ((Json.uniqueNames_obj members).mp hv).2
      obtain ⟨hattributes, around, haround, hkeeps⟩ :=
        fieldOfOffers_eq_ok hv (fun m hm => recoverable m.2 (hmembers m hm)) hread
      refine ⟨uniqueNames_fieldToJson hv hattributes hkeeps, ?_⟩
      rw [fieldToJson_eq]
      exact fieldOfOffers_written hv hattributes haround hkeeps
  | _ => cases hread

end TypeHint

namespace ParameterSpec

theorem ofJson_of_field (held : Bool) {v : Json} {f : WebField}
    (hfield : TypeHint.fieldOfJson v = .ok f) : ofJson (.offered held v) = .ok (.field f) := by
  rw [ofJson, Part.readWritten_offered]
  simp only [bind, Except.bind, hfield]
  rfl

theorem ofJson_of_noField (held : Bool) {v : Json} {e : ReadError}
    (hfield : TypeHint.fieldOfJson v = .error e) :
    ofJson (.offered held v) = (Attributes.ofJson (.offered held v)).map .attributes := by
  rw [ofJson, Part.readWritten_offered]
  simp only [bind, Except.bind, hfield]
  rfl

theorem roundTrips : RoundTrips ofJson toJson where
  recovers {p spec} hp hread := by
    obtain ⟨v, held, hv, rfl⟩ := hp
    cases hfield : TypeHint.fieldOfJson v with
    | ok f =>
        rw [ofJson_of_field held hfield] at hread
        obtain rfl := Except.ok.inj hread
        obtain ⟨hunique, hagain⟩ := TypeHint.recovers_field hv hfield
        exact ⟨hunique, fun again => ofJson_of_field again hagain⟩
    | error e =>
        rw [ofJson_of_noField held hfield] at hread
        obtain ⟨a, ha, rfl⟩ := Reading.map_eq_ok_iff.mp hread
        have hrecovers := Attributes.roundTrips.recovers ⟨v, held, hv, rfl⟩ ha
        have hwritten : v = (attributes a).toJson := Attributes.eq_obj_of_ofJson hv ha
        refine ⟨hrecovers.unique, fun again => ?_⟩
        rw [ofJson_of_noField again (hwritten ▸ hfield)]
        exact congrArg (Except.map attributes) (hrecovers.reads again)
  null_of_null {p spec} hp hread hnull := by
    cases spec with
    | field f => rw [toJson, TypeHint.fieldToJson_eq] at hnull; cases hnull
    | attributes a => cases hnull

end ParameterSpec

namespace ResponseSpec

/-- The value is taken for a hint: it is no object, or one of the names of hints is in it. -/
def isHint : Json → Bool
  | .obj members =>
      (members.map (·.1)).contains "field" || (members.map (·.1)).contains "builtin"
  | _ => true

theorem ofJson_of_isHint (held : Bool) {v : Json} (hv : v.UniqueNames) (hhint : isHint v = true) :
    ofJson (.offered held v) = .ok (.hint (TypeHint.ofJson v)) := by
  rw [ofJson, Part.readAny_offered held hv]
  cases v with
  | obj members => exact if_pos hhint
  | _ => rfl

theorem ofJson_of_not_isHint (held : Bool) {v : Json} (hv : v.UniqueNames)
    (hhint : isHint v = false) :
    ofJson (.offered held v) = (TypeHint.modelOfJson v).map .model := by
  rw [ofJson, Part.readAny_offered held hv]
  cases v with
  | obj members => exact if_neg (Bool.eq_false_iff.mp hhint)
  | _ => cases hhint

theorem isHint_toJson {v : Json} (hv : v.UniqueNames) (hhint : isHint v = true) :
    isHint (TypeHint.ofJson v).toJson = true := by
  cases v with
  | obj members =>
      cases hnative : TypeHint.nativeOfMembers members with
      | ok type =>
          rw [TypeHint.ofJson_of_native hnative, TypeHint.toJson]
          rfl
      | error e =>
          cases hfield : TypeHint.fieldOfOffers (TypeHint.offersOf members) with
          | ok f =>
              rw [TypeHint.ofJson_of_field hnative hfield]
              change isHint (TypeHint.fieldToJson f) = true
              simp [TypeHint.fieldToJson_eq, isHint, TypeHint.fieldMembers]
          | error e' =>
              rw [TypeHint.ofJson, hnative, hfield, TypeHint.toJson, Json.collapse_eq _ hv]
              exact hhint
  | str s => rfl
  | _ =>
      rw [TypeHint.ofJson, TypeHint.toJson, Json.collapse_eq _ hv] <;>
        first | rfl | (intro _ heq; cases heq)

theorem isHint_modelToJson {v : Json} {model : OrderedMap TypeHint} (hhint : isHint v = false)
    (hread : TypeHint.modelOfJson v = .ok model) : isHint (TypeHint.modelToJson model) = false := by
  cases v with
  | obj members =>
      rw [TypeHint.modelToJson, isHint, TypeHint.names_of_modelOfJson hread]
      exact hhint
  | _ => cases hhint

theorem roundTrips : RoundTrips ofJson toJson where
  recovers {p spec} hp hread := by
    obtain ⟨v, held, hv, rfl⟩ := hp
    have hkept := TypeHint.recoverable v hv
    cases hhint : isHint v with
    | true =>
        rw [ofJson_of_isHint held hv hhint] at hread
        obtain rfl := Except.ok.inj hread
        refine ⟨hkept.unique, fun again => ?_⟩
        rw [toJson, ofJson_of_isHint again hkept.unique (isHint_toJson hv hhint), hkept.again]
    | false =>
        rw [ofJson_of_not_isHint held hv hhint] at hread
        obtain ⟨m, hm, rfl⟩ := Reading.map_eq_ok_iff.mp hread
        obtain ⟨hunique, hagain⟩ := hkept.model hm
        refine ⟨hunique, fun again => ?_⟩
        rw [toJson, ofJson_of_not_isHint again hunique (isHint_modelToJson hhint hm)]
        exact congrArg (Except.map model) hagain
  null_of_null {p spec} hp hread hnull := by
    obtain ⟨v, held, hv, rfl⟩ := hp
    cases hhint : isHint v with
    | true =>
        rw [ofJson_of_isHint held hv hhint] at hread
        obtain rfl := Except.ok.inj hread
        exact congrArg Json.Tree.ofJson ((TypeHint.recoverable v hv).null_of_null hnull)
    | false =>
        rw [ofJson_of_not_isHint held hv hhint] at hread
        obtain ⟨m, -, rfl⟩ := Reading.map_eq_ok_iff.mp hread
        cases hnull

end ResponseSpec

namespace Response

theorem eq_pair_of_ofJson {held : Bool} {v : Json} {r : Response}
    (hread : ofJson (.offered held v) = .ok r) : ∃ description spec,
      v = .arr [description, spec] ∧
        Part.readOptional Part.readText (.offered held description) = .ok r.description ∧
          Part.readOptional ResponseSpec.ofJson (.offered held spec) = .ok r.spec := by
  match v, hread with
  | .arr [description, spec], hread =>
      obtain ⟨d, hdescription, hread⟩ := Fallible.bind_eq_ok_iff.mp hread
      obtain ⟨s, hspec, hread⟩ := Fallible.bind_eq_ok_iff.mp hread
      cases hread
      exact ⟨description, spec, rfl, hdescription, hspec⟩

theorem roundTrips : RoundTrips ofJson toJson where
  recovers {p r} hp hread := by
    obtain ⟨v, held, hv, rfl⟩ := hp
    obtain ⟨description, spec, rfl, hdescription, hspec⟩ := eq_pair_of_ofJson hread
    rw [Json.uniqueNames_arr] at hv
    have hd := roundTrips_text.optional.recovers
      (Part.plain_offered held (hv description (by simp))) hdescription
    have hs := ResponseSpec.roundTrips.optional.recovers
      (Part.plain_offered held (hv spec (by simp))) hspec
    refine ⟨?_, fun again => ?_⟩
    · rw [toJson, Json.uniqueNames_arr]
      simpa using ⟨hd.unique, hs.unique⟩
    · exact Fallible.bind_eq_ok_iff.mpr ⟨_, hd.reads again, Fallible.bind_eq_ok_iff.mpr
        ⟨_, hs.reads again, rfl⟩⟩
  null_of_null _ _ := nofun

end Response

namespace MemberDoc

theorem roundTrips_params : RoundTrips readParams paramsToJson :=
  ParameterSpec.roundTrips.map

theorem roundTrips : RoundTrips ofJson toJson := by
  refine .record (fun _ => rfl) (by simp : ["params", "expect", "responses"].Nodup)
    fun hr held => ?_
  iterate 2 apply every_seq
  refine every_map fun _ params hparams _ expect hexpect _ responses hresponses => ?_
  have hnoParams : Recovers readParams paramsToJson .empty := recovers_noEntries
  have hnoResponses : Recovers (fun p => SortedMap.ofList <$> p.readMembers Response.ofJson)
      (fun m => .obj (m.map Response.toJson).entries) .empty :=
    ⟨by simp [SortedMap.map, SortedMap.empty], fun _ => rfl⟩
  exact ((roundTrips_params.keeps_optional hr hparams hnoParams held).map MemberDoc.mk)
    |>.seq (roundTrips_params.list.keeps_optional hr hexpect recovers_noItems held)
    |>.seq (Response.roundTrips.sortedMap.keeps_optional hr hresponses hnoResponses held)

end MemberDoc

namespace ClassDoc

theorem roundTrips : RoundTrips ofJson toJson := by
  refine .record (fun _ => rfl) (by simp : ["params"].Nodup) fun hr held => ?_
  refine every_map fun _ params hparams => ?_
  exact (Attributes.roundTrips.map.keeps_optional hr hparams recovers_noEntries held).map
    ClassDoc.mk

end ClassDoc

namespace Parameter

theorem roundTrips : RoundTrips ofJson toJson := by
  refine .record (fun _ => rfl) (by simp : ["name", "annotation"].Nodup) fun hr held => ?_
  apply every_seq
  refine every_map fun _ name hname _ hint hhint => ?_
  exact ((roundTrips_text.keeps_required hr hname held).map Parameter.mk)
    |>.seq (TypeHint.roundTrips.keeps_member? hr hhint held)

end Parameter

namespace Signature

theorem roundTrips : RoundTrips ofJson toJson := by
  refine .record (fun s => by rw [toJson, ← List.map_id s.defaults])
    (by simp : ["params", "defaults"].Nodup) fun hr held => ?_
  apply every_seq
  refine every_map fun _ params hparams _ defaults hdefaults => ?_
  exact ((Parameter.roundTrips.list.keeps_optional hr hparams recovers_noItems held).map
      Signature.mk)
    |>.seq (roundTrips_any.list.keeps_optional hr hdefaults recovers_noItems held)

theorem recovers_empty : Recovers ofJson toJson .empty :=
  ⟨by simp [toJson, empty], fun _ => rfl⟩

end Signature

namespace Member

theorem roundTrips_kind : RoundTrips MemberKind.ofJson (fun k => .str k.word) :=
  roundTrips_word fun k => by cases k <;> rfl

theorem roundTrips : RoundTrips ofJson toJson := by
  refine .record (fun _ => rfl)
    (by simp : ["kind", "doc", "rpc_doc_args", "rpc_doc_resp", "apidoc", "signature"].Nodup)
    fun hr held => ?_
  iterate 5 apply every_seq
  refine every_map fun _ kind hkind _ doc hdoc _ arguments harguments _ result hresult
    _ memberDoc hmemberDoc _ signature hsignature => ?_
  exact ((roundTrips_kind.keeps_optional hr hkind (recovers_word rfl) held).map Member.mk)
    |>.seq (roundTrips_text.keeps_member? hr hdoc held)
    |>.seq (DataType.roundTrips.keeps_member? hr harguments held)
    |>.seq (DataType.roundTrips.keeps_member? hr hresult held)
    |>.seq (MemberDoc.roundTrips.keeps_member? hr hmemberDoc held)
    |>.seq (Signature.roundTrips.keeps_optional hr hsignature Signature.recovers_empty held)

end Member

namespace ClassDeclaration

def fieldNames : List String :=
  ["name", "module", "capability", "impl_rename", "apidoc", "namespace", "members"]

theorem roundTrips_capability : RoundTrips Capability.ofJson (fun c => .str c.word) :=
  roundTrips_word fun c => by cases c <;> rfl

theorem keeps {r : Record Part} (hr : r.Plain) (held : Bool) :
    reader.Every r fun c => Keeps (.offered held) reader c fieldNames c.jsonMembers := by
  iterate 6 apply every_seq
  refine every_map fun _ name hname _ module hmodule _ capability hcapability
    _ renamed hrenamed _ classDoc hclassDoc _ webNamespace hwebNamespace _ members hmembers => ?_
  exact ((roundTrips_text.keeps_optional hr hname (recovers_text "") held).map
      ClassDeclaration.mk)
    |>.seq (roundTrips_text.keeps_optional hr hmodule (recovers_text "") held)
    |>.seq (roundTrips_capability.keeps_optional hr hcapability (recovers_word rfl) held)
    |>.seq (roundTrips_text.keeps_member? hr hrenamed held)
    |>.seq (ClassDoc.roundTrips.keeps_member? hr hclassDoc held)
    |>.seq (WebNamespace.roundTrips.keeps_member? hr hwebNamespace held)
    |>.seq (Member.roundTrips.map.keeps_optional hr hmembers recovers_noEntries held)

end ClassDeclaration

namespace Export

/-- Once the parts are there, the attribute is read from the one that names its kind and from the
others. -/
theorem ofJson_obj (held : Bool) (members : List (String × Json)) :
    ofJson (.offered held (.obj members)) =
      match Record.occurrences "kind" (members.map fun m => (m.1, Part.offered true m.2)) with
      | [(_, tag)] => (do
          ofRecord (← tag.readText)
            (.named ((members.map fun m => (m.1, Part.offered true m.2)).filter (·.1 != "kind"))
              true))
      | _ => .error .mismatch := by
  rw [← members_ofMembers, ofJson, Part.hold_offered]
  rfl

/-- An attribute is read back from its kind and the members that go with it. -/
theorem recovers_tagged (word : String) {reader : RecordReader Part Export} {e : Export}
    {names : List String} {members : List (String × Json)}
    (hword : ∀ r, ofRecord word r = reader.run r)
    (hwrite : e.toJson = .obj (("kind", .str word) :: members))
    (hnames : ("kind" :: names).Nodup)
    (hkeeps : Keeps (Part.offered true) reader e names members) : Recovers ofJson toJson e := by
  obtain ⟨hkind, hnodup⟩ := List.nodup_cons.mp hnames
  have htag : ∀ m ∈ members, m.1 ≠ "kind" := fun m hm heq => hkind (heq ▸ hkeeps.mem_names hm)
  refine ⟨?_, fun held => ?_⟩
  · rw [hwrite, Json.uniqueNames_obj]
    refine ⟨.sublist (hkeeps.sublist.cons_cons "kind") hnames, ?_⟩
    exact List.forall_mem_cons.mpr ⟨Json.uniqueNames_str _, hkeeps.unique⟩
  · obtain ⟨place, hoccurrences⟩ := Keeps.occurrences_tagged (Part.offered true) htag (.str word)
    rw [hwrite, ofJson_obj, hoccurrences, Keeps.filter_tagged htag]
    exact (hword _).trans (hkeeps.run_members hnodup)

/-- What is read for a word is written with that word. -/
theorem recovers_of_ofRecord {word : String} {r : Record Part} (hr : r.Plain) {e : Export}
    (hread : ofRecord word r = .ok e) : Recovers ofJson toJson e := by
  unfold ofRecord at hread
  split at hread
  · refine every_map (fun _ target htarget => ?_) 0 e (run_eq_ok hread)
    exact recovers_tagged "module" (fun _ => rfl) rfl (by simp)
      ((roundTrips_text.keeps_required hr htarget true).map Export.reference)
  · refine every_map (fun _ c hc => ?_) 0 e (run_eq_ok hread)
    exact recovers_tagged "class" (fun _ => rfl) rfl
      (by simp [ClassDeclaration.fieldNames])
      ((ClassDeclaration.keeps hr true _ c hc).map Export.declaration)
  · refine every_seq (every_map fun _ tag htag _ value hvalue => ?_) 0 e (run_eq_ok hread)
    have hnoTag : Recovers (Part.readOptional Part.readText) (fun o => (o.map .str).getD .null)
        none := ⟨Json.uniqueNames_null, fun _ => rfl⟩
    exact recovers_tagged "model" (fun _ => rfl) rfl (by simp)
      (((roundTrips_text.optional.keeps_optional hr htag hnoTag true).map Export.model).seq
        (roundTrips_any.keeps_required hr hvalue true))
  · refine every_map (fun _ value hvalue => ?_) 0 e (run_eq_ok hread)
    exact recovers_tagged "type" (fun _ => rfl) rfl (by simp)
      ((roundTrips_any.keeps_required hr hvalue true).map Export.type)
  · cases run_eq_ok hread
    exact recovers_tagged "opaque" (fun _ => rfl) rfl (by simp) (.pure _)
  · refine every_map (fun _ error herror => ?_) 0 e (run_eq_ok hread)
    exact recovers_tagged "broken" (fun _ => rfl) rfl (by simp)
      ((roundTrips_text.keeps_required hr herror true).map Export.broken)
  · cases hread

theorem roundTrips : RoundTrips ofJson toJson where
  recovers {p e} hp hread := by
    obtain ⟨v, held, hv, rfl⟩ := hp
    cases v with
    | obj members =>
        rw [ofJson_obj] at hread
        split at hread
        · obtain ⟨word, -, hrecord⟩ := Fallible.bind_eq_ok_iff.mp hread
          refine recovers_of_ofRecord (fun p hp => ?_) hrecord
          obtain ⟨entry, hentry, rfl⟩ := List.mem_map.mp hp
          exact plain_of_mem hv (List.mem_filter.mp hentry).1
        · cases hread
    | arr items =>
        rw [ofJson, Part.hold_offered] at hread
        cases items with
        | nil => cases hread
        | cons item rest =>
            have hread : (do
                ofRecord (← Part.readText (.offered true item))
                  (.positional ((Json.Tree.ofItems rest).map (⟨·, true⟩)) true)) = .ok e := hread
            obtain ⟨word, -, hrecord⟩ := Fallible.bind_eq_ok_iff.mp hread
            refine recovers_of_ofRecord (fun p hp => ?_) hrecord
            rw [Record.parts, Json.Tree.ofItems_eq, List.map_map] at hp
            obtain ⟨other, hother, rfl⟩ := List.mem_map.mp hp
            exact Part.plain_offered true
              ((Json.uniqueNames_arr _).mp hv other (List.mem_cons_of_mem item hother))
    | _ =>
        rw [ofJson, Part.hold_offered] at hread
        cases hread
  null_of_null {p e} _ _ hnull := by
    cases e <;> cases hnull

end Export

namespace ModuleDeclaration

theorem roundTrips : RoundTrips ofJson toJson := by
  refine .record (fun _ => rfl) (by simp : ["name", "attrs"].Nodup) fun hr held => ?_
  apply every_seq
  refine every_map fun _ name hname _ attributes hattributes => ?_
  exact ((roundTrips_text.keeps_required hr hname held).map ModuleDeclaration.mk)
    |>.seq (Export.roundTrips.map.keeps_optional hr hattributes recovers_noEntries held)

end ModuleDeclaration

namespace Document

theorem roundTrips : RoundTrips ofJson toJson := by
  refine .record (fun _ => rfl) (by simp : ["modules"].Nodup) fun hr held => ?_
  refine every_map fun _ modules hmodules => ?_
  exact (ModuleDeclaration.roundTrips.list.keeps_optional hr hmodules recovers_noItems held).map
    Document.mk

/-- A document that is read from a value without repeated names is written as such a value, and
that is read as the same document. -/
theorem written_reads_back {v : Json} (hv : v.UniqueNames) {d : Document}
    (hread : ofJson (.ofJson v) = .ok d) :
    d.toJson.UniqueNames ∧ ofJson (.ofJson d.toJson) = .ok d := by
  have hrecovers := roundTrips.recovers (Part.plain_offered false hv) hread
  exact ⟨hrecovers.unique, hrecovers.reads false⟩

end Document

namespace RoundTripWitness

/-- A class with one member: its kind is not written first, a type is named by its number, the
answers are not in order, and one of them is a model while the other is a hint. -/
def shopJson : Json :=
  .obj [("modules", .arr [.obj [("name", .str "shop"), ("attrs", .obj [("Orders",
    .obj [("capability", .str "service_base"), ("kind", .str "class"), ("members",
      .obj [("find", .obj [
        ("rpc_doc_args", .obj [("required", .bool false), ("type", .str "dict"), ("fields",
          .obj [("id", .obj [("type", .num (.int 2)), ("required", .bool true)])])]),
        ("apidoc", .obj [
          ("params", .obj [("id", .obj [("field", .str "List"), ("container", .str "int"),
            ("builtin", .str "list")])]),
          ("responses", .obj [
            ("404", .arr [.str "gone", .obj [("why", .str "str")]]),
            ("200", .arr [.null, .obj [("builtin", .str "int")]])])])])])])])]])]

def shop : Document :=
  let argument := { DataType.scalar .int with required := true }
  let param : ParameterSpec :=
    .field ⟨"List", some (.literal "int"), none, ⟨[("builtin", .str "list")]⟩⟩
  let responses : SortedMap String Response :=
    ⟨[("200", ⟨none, some (.hint (.native .int))⟩),
      ("404", ⟨some "gone", some (.model ⟨[("why", .literal "str")]⟩)⟩)]⟩
  let find : Member :=
    { kind := .function, doc := none, plainArguments := some (.dict ⟨[("id", argument)]⟩)
      plainResult := none, memberDoc := some ⟨⟨[("id", param)]⟩, [], responses⟩
      signature := .empty }
  ⟨[⟨"shop", ⟨[("Orders", .declaration
    { name := "", module := "", capability := .serviceBase, implementationName := none
      classDoc := none, webNamespace := none, members := ⟨[("find", find)]⟩ })]⟩⟩]⟩

theorem shop_reads_back :
    shopJson.UniqueNames ∧ Document.ofJson (.ofJson shopJson) = .ok shop ∧
      shop.toJson.UniqueNames ∧ Document.ofJson (.ofJson shop.toJson) = .ok shop := by
  have hunique : shopJson.UniqueNames := by simp [shopJson]
  have hread : Document.ofJson (.ofJson shopJson) = .ok shop := rfl
  exact ⟨hunique, hread, Document.written_reads_back hunique hread⟩

end RoundTripWitness

end ServiceGen

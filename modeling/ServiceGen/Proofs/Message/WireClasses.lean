import Mathlib.Data.List.Perm.Basic
import ServiceGen.Proofs.Message.Lowering

/-!
The data classes of a service beside its messages.  Classes and messages are two readings of the
same containers, classes with the inner ones first and messages with the outer ones first; how a class
puts a field into its message fits what the message holds there.
-/

namespace ServiceGen

/-- How a field is put into a message fits the field: one by one exactly into a repeated field,
with a conversion of the elements exactly when these are messages, by merging exactly into a single
message, and by an assignment exactly into a single scalar. -/
structure Conversion.Fits (how : Conversion) (f : MessageField) : Prop where
  append_iff : (∃ converts, how = .append converts) ↔ f.multiplicity = .many
  converts_iff : how = .append true ↔ f.multiplicity = .many ∧ ∃ name, f.type = .message name
  merge_iff : how = .merge ↔ f.multiplicity = .one ∧ ∃ name, f.type = .message name
  assign_iff : how = .assign ↔ f.multiplicity = .one ∧ ∃ name, f.type = .scalar name

theorem Conversion.Fits.plain_iff {how : Conversion} {f : MessageField} (h : how.Fits f) :
    how = .append false ↔ f.multiplicity = .many ∧ ∃ name, f.type = .scalar name := by
  constructor
  · rintro rfl
    have hmany := h.append_iff.mp ⟨false, rfl⟩
    refine ⟨hmany, ?_⟩
    cases htype : f.type with
    | scalar name => exact ⟨name, rfl⟩
    | message name => cases h.converts_iff.mpr ⟨hmany, name, htype⟩
  · rintro ⟨hmany, name, htype⟩
    obtain ⟨converts, rfl⟩ := h.append_iff.mpr hmany
    cases converts with
    | false => rfl
    | true =>
        obtain ⟨-, message, hmessage⟩ := h.converts_iff.mp rfl
        cases htype.symm.trans hmessage

namespace MessageField.Carries

variable {f : MessageField} {field : String × DataType}

theorem multiplicity_eq_one (h : f.Carries field) (hlist : field.2.isList = false) :
    f.multiplicity = .one := by
  cases hmultiplicity : f.multiplicity with
  | one => rfl
  | many => exact absurd (h.many_iff.mp hmultiplicity) (by simp [hlist])

/-- A field is a message exactly when its values are dicts. -/
theorem exists_message_iff (h : f.Carries field) :
    (∃ name, f.type = .message name) ↔ field.2.single.isDict = true := by
  constructor
  · rintro ⟨name, htype⟩
    exact ((h.message_iff name).mp htype).1
  · intro hdict
    exact ⟨_, (h.message_iff _).mpr ⟨hdict, rfl⟩⟩

theorem exists_scalar_iff (h : f.Carries field) :
    (∃ name, f.type = .scalar name) ↔ field.2.single.isDict = false := by
  rw [← Bool.not_eq_true, ← h.exists_message_iff]
  cases f.type <;> simp

/-- A field that carries a type is one that the conversion of the type fits. -/
theorem exists_conversion (h : f.Carries field) (hvoid : field.2.isVoid = false) :
    ∃ how, field.2.conversion = some how ∧ how.Fits f := by
  cases hkind : field.2.kind with
  | void => simp [DataType.isVoid, hkind] at hvoid
  | list element =>
      have hmany : f.multiplicity = .many := h.many_iff.mpr (by simp [DataType.isList, hkind])
      have hmessage := h.exists_message_iff
      simp only [DataType.single, DataType.element?, hkind, Option.getD_some] at hmessage
      refine ⟨.append element.isDict, by simp [DataType.conversion, hkind], ?_⟩
      constructor <;> simp [hmany, hmessage]
  | dict fields =>
      have hone := h.multiplicity_eq_one (by simp [DataType.isList, hkind])
      have hmessage := h.exists_message_iff
      have hscalar := h.exists_scalar_iff
      simp only [DataType.single, DataType.element?, hkind, Option.getD_none, DataType.isDict]
        at hmessage hscalar
      refine ⟨.merge, by simp [DataType.conversion, hkind], ?_⟩
      constructor <;> simp [hone, hmessage, hscalar]
  | _ =>
      have hone := h.multiplicity_eq_one (by simp [DataType.isList, hkind])
      have hmessage := h.exists_message_iff
      have hscalar := h.exists_scalar_iff
      simp only [DataType.single, DataType.element?, hkind, Option.getD_none, DataType.isDict]
        at hmessage hscalar
      refine ⟨.assign, by simp [DataType.conversion, hkind], ?_⟩
      constructor <;> simp [hone, hmessage, hscalar]

end MessageField.Carries

namespace DataClass

/-- What a class is generated for: its path and its fields. -/
def outline (c : DataClass) : TypePath × List (String × DataType) :=
  (c.path, c.fields.entries)

end DataClass

/-- What is generated for a container: its path and the fields that are sent. -/
def Contents.outline (c : Contents) : TypePath × List (String × DataType) :=
  (c.path, c.sent)

namespace DataClass

theorem ofField_dict (path : TypePath) {t : DataType} {fields : Fields}
    (hkind : t.kind = .dict fields) :
    ofField path t = below path fields.entries ++ [⟨path, t.description, fields.sent⟩] := by
  cases t
  cases hkind
  rfl

theorem ofField_list (path : TypePath) {t element : DataType} (hkind : t.kind = .list element) :
    ofField path t = ofElement path element := by
  cases t
  cases hkind
  rfl

/-- Elements have the classes that a field of their type would have, unless they are lists. -/
theorem ofElement_of_not_list (path : TypePath) {t : DataType} (hlist : t.isList = false) :
    ofElement path t = ofField path t := by
  obtain ⟨kind⟩ := t
  cases kind with
  | list element => simp [DataType.isList] at hlist
  | _ => rfl

theorem ofField_eq_nil (path : TypePath) {t : DataType} (hdict : t.isDict = false)
    (hlist : t.isList = false) : ofField path t = [] := by
  obtain ⟨kind⟩ := t
  cases kind with
  | list element => simp [DataType.isList] at hlist
  | dict fields => simp [DataType.isDict] at hdict
  | _ => rfl

theorem ofField_void (path : TypePath) {t : DataType} (hvoid : t.isVoid = true) :
    ofField path t = [] := by
  obtain ⟨kind⟩ := t
  cases kind <;> first | rfl | simp [DataType.isVoid] at hvoid

/-- Void fields have no classes. -/
theorem below_filter (path : TypePath) (fields : List (String × DataType)) :
    below path (fields.filter fun field => !field.2.isVoid) = below path fields := by
  induction fields with
  | nil => rfl
  | cons field rest ih =>
      obtain ⟨name, t⟩ := field
      cases hvoid : t.isVoid <;> simp [below, hvoid, ih, ofField_void]

/-- The classes below named types are those for the containers below them, if that is so for each
of the types. -/
theorem below_perm {fields : List (String × DataType)}
    (hfields : ∀ field ∈ fields, ∀ path,
      ((ofField path field.2).map outline).Perm
        ((Contents.ofType path field.2).map Contents.outline)) (path : TypePath) :
    ((below path fields).map outline).Perm
      ((Contents.below path fields).map Contents.outline) := by
  induction fields with
  | nil => exact .refl _
  | cons field rest ih =>
      rw [List.forall_mem_cons] at hfields
      rw [below, Contents.below, List.map_append, List.map_append]
      exact (hfields.1 _).append (ih hfields.2)

/-- The classes for a well-formed type are those for its containers. -/
theorem ofField_perm {t : DataType} (h : t.WellFormed) :
    ∀ path, ((ofField path t).map outline).Perm
      ((Contents.ofType path t).map Contents.outline) := by
  induction h with
  | @list t element hkind _ hlist _ ih =>
      intro path
      rw [ofField_list path hkind, Contents.ofType_list path hkind,
        ofElement_of_not_list path hlist]
      exact ih path
  | @dict t fields hkind _ _ ih =>
      intro path
      rw [ofField_dict path hkind, Contents.ofType_dict path hkind, List.map_append,
        Contents.withBelow, List.map_cons]
      exact List.perm_append_comm.trans (.cons _ (below_perm ih path))
  | _ hkind =>
      intro path
      rw [ofField_eq_nil, Contents.ofType_eq_nil] <;>
        simp [DataType.isDict, DataType.isList, hkind]

theorem outline_ofFields_perm {c : Contents} (hc : c.WellFormed) {fields : Fields}
    (hfields : fields.entries = c.sent) (description : String) :
    ((ofFields c.path description fields).map outline).Perm
      (c.withBelow.map Contents.outline) := by
  have hsent : fields.sent.entries = c.sent := by
    rw [OrderedMap.sent, OrderedMap.filter, hfields, Contents.sent, List.filter_filter]
    simp
  have hbelow := below_perm (fun field hfield => ofField_perm (hc field hfield)) c.path
  rw [ofFields, List.map_append, hsent, Contents.sent, below_filter, Contents.withBelow,
    List.map_cons]
  refine List.perm_append_comm.trans ?_
  simpa [outline, Contents.outline, hsent] using hbelow

/-- The classes of a well-formed service are those for its containers, in another order. -/
theorem outline_ofService_perm {s : Service} (hs : s.WellFormed) :
    ((ofService s).map outline).Perm ((Contents.ofService s).map Contents.outline) := by
  rw [ofService, Contents.ofService, List.map_flatMap, List.map_flatMap]
  refine List.Perm.flatMap_left s.operations ?_
  intro o ho
  rw [ofOperation, List.map_append, List.map_append]
  exact (outline_ofFields_perm (Operation.wellFormed_argument (hs o ho) s.name)
      (Operation.entries_sentArguments (hs o ho)) o.description).append
    (outline_ofFields_perm (Operation.wellFormed_result (hs o ho) s.name)
      (Operation.entries_sentResult o) "")

/-- A class and a message under its qualified name are of the same container: the class asks for
the message by its name and fills in its fields one after the other, each in the way that fits, and
it has no other fields. -/
structure Matches (c : DataClass) (named : String × Message) : Prop where
  wireName_eq : c.path.wireName = named.1
  fields : List.Forall₂ (fun conversion f => conversion.1 = f.name ∧ conversion.2.Fits f)
    c.conversions named.2.fields
  complete : c.fields.entries.length = c.conversions.length

theorem forall₂_conversions {fields : List (String × DataType)} {messageFields : List MessageField}
    (hcarries : List.Forall₂ MessageField.Carries messageFields fields)
    (hsent : ∀ field ∈ fields, field.2.isVoid = false) :
    List.Forall₂ (fun conversion f => conversion.1 = f.name ∧ conversion.2.Fits f)
      (fields.filterMap fun (name, t) => t.conversion.map (name, ·)) messageFields := by
  induction hcarries with
  | nil => exact .nil
  | @cons f field _ _ hf _ ih =>
      obtain ⟨name, t⟩ := field
      rw [List.forall_mem_cons] at hsent
      obtain ⟨how, hhow, hfits⟩ := hf.exists_conversion hsent.1
      simp only at hhow
      simp only [List.filterMap_cons, hhow, Option.map_some]
      exact .cons ⟨hf.name_eq.symm, hfits⟩ (ih hsent.2)

/-- A class that is generated for a container matches the message for it. -/
theorem matches_of_lowers {c : DataClass} {contents : Contents} {named : String × Message}
    (hc : c.outline = contents.outline) (hlowers : Lowers named contents) : c.Matches named := by
  obtain ⟨hpath, hfields⟩ := Prod.mk.inj hc
  have hconversions : List.Forall₂ (fun conversion f => conversion.1 = f.name ∧ conversion.2.Fits f)
      c.conversions named.2.fields := by
    rw [conversions, hfields]
    refine forall₂_conversions hlowers.holds.fields ?_
    intro field hfield
    simpa using (List.mem_filter.mp hfield).2
  refine ⟨by rw [hpath, hlowers.qualified], hconversions, ?_⟩
  rw [hfields, hconversions.length_eq, hlowers.holds.fields.length_eq]

/-- The classes of a well-formed service can be paired off with its messages. -/
theorem exists_matching {s : Service} (hs : s.WellFormed) :
    ∃ messages, List.Forall₂ Matches (ofService s) messages ∧
      messages.Perm (Descriptor.ofService s).allMessages := by
  have houtline : List.Forall₂ (fun outline named =>
      ∀ c : DataClass, c.outline = outline → c.Matches named)
      ((Contents.ofService s).map Contents.outline) (Descriptor.ofService s).allMessages := by
    rw [List.forall₂_map_left_iff]
    exact (Descriptor.forall₂_allMessages hs).flip.imp
      fun contents named hlowers c hc => matches_of_lowers hc hlowers
  -- the classes come in another order than the containers, and their messages follow them
  obtain ⟨messages, hmessages, hperm⟩ :=
    List.perm_comp_forall₂ (outline_ofService_perm hs) houtline
  rw [List.forall₂_map_left_iff] at hmessages
  exact ⟨messages, hmessages.imp fun c named h => h c rfl, hperm⟩

end DataClass

end ServiceGen

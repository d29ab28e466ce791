import ServiceGen.Proofs.Message.WireClasses
import ServiceGen.Proofs.Source.Sections
import ServiceGen.Stub.Module

/-!
The modules with data classes, and the methods in which the classes make their messages.  A module
is read as its classes and a class as its methods, from the lines alone.  What a method makes stands
in its lines: the name of the message, and for each field the statements that fill it in.  There is
one way to read them, and read so the classes of an accepted service mirror its messages.
-/

namespace ServiceGen

namespace DataClass

section Outline

def heading (c : DataClass) : String :=
  "class " ++ c.path.className ++ "(RPCDict):"

/-- What follows the docstring of a class. -/
def code (use : ClassUse) (c : DataClass) : List Block :=
  c.constructorBlocks ++ [.blank]
    ++ (match use with
      | .wire => c.toWireBlocks ++ [.blank] ++ c.fromSourceBlocks .wire ++ [.blank]
      | .definitions => [])
    ++ c.fromSourceBlocks .dict

def body (use : ClassUse) (c : DataClass) : List Block :=
  c.docBlocks ++ c.code use

theorem blocks_eq (use : ClassUse) (c : DataClass) :
    c.blocks use = [.line c.heading, .nest (c.body use)] := by
  have hheading : "class " ++ c.path.className ++ "(RPCDict)" ++ ":" = c.heading :=
    String.append_assoc
  cases use <;> simp only [blocks, Block.colon, hheading, body, code, List.append_assoc]

theorem sections_serviceBlocks (use : ClassUse) (s : Service) :
    Block.sections (serviceBlocks use s) =
      (ofService s).map fun c => (c.heading, c.body use) := by
  have hclass : ∀ c : DataClass, c.blocks use ++ [.blank] =
      [.line c.heading, .nest (c.body use), .blank] := by
    intro c
    rw [blocks_eq]
    rfl
  simp only [serviceBlocks, hclass]
  rw [Block.sections_flatMap fun _ _ => rfl]
  simp only [Block.sections_section, Block.sections_blank, Block.sections_nil]
  exact List.map_eq_flatMap.symm

theorem beginsDeeper_serviceBlocks (use : ClassUse) (s : Service) :
    Block.beginsDeeper (serviceBlocks use s) = false :=
  Block.beginsDeeper_flatMap fun c _ => by
    rw [blocks_eq]
    rfl

/-- Behind its first lines, a module with data classes for calls consists of the classes. -/
theorem sections_dataModule (side : Side) (s : Service) :
    Block.sections (s.dataModule side) =
      (ofService s).map fun c => (c.heading, c.body .wire) := by
  rw [Service.dataModule, Block.sections_append (beginsDeeper_serviceBlocks ..),
    sections_serviceBlocks]
  simp

theorem sections_definitionsModule (options : StubOptions) (s : Service) :
    Block.sections (s.definitionsModule options) =
      (ofService s).map fun c => (c.heading, c.body .definitions) := by
  rw [Service.definitionsModule, Block.sections_append (beginsDeeper_serviceBlocks ..),
    sections_serviceBlocks]
  simp

end Outline

end DataClass

namespace WireMethod

def header : String := "def convert_pb2(self):"

/-- The bodies of the methods of that header in a class. -/
def bodies (classBody : List Block) : List (List Block) :=
  ((Block.sections classBody).filter (·.1 == header)).map (·.2)

def appendLoop (name item : String) : List Block :=
  [.line ("for item in self." ++ name ++ ":"),
    .nest [.line ("result." ++ name ++ ".append(" ++ item ++ ")")]]

def mergeCall (name : String) : List Block :=
  [.line ("result." ++ name ++ ".MergeFrom(self." ++ name ++ ".convert_pb2())")]

def assignment (name : String) : List Block :=
  [.line ("result." ++ name ++ " = self." ++ name)]

/-- A method body that makes a message of a name, with the statements for its fields in between. -/
def making (wireName : String) : List (List Block) → List Block
  | [] => [.line ("return pb2." ++ wireName ++ "()")]
  | statements =>
      .line ("result = pb2." ++ wireName ++ "()") :: statements.flatten ++ [.line "return result"]

/-- The statements put something into the field of a name. -/
def Puts (statements : List Block) (name : String) : Prop :=
  (∃ item, statements = appendLoop name item) ∨ statements = mergeCall name ∨
    statements = assignment name

/-- The statements for a field of a message: a loop that appends exactly when the field is repeated,
in which the items are converted exactly when these are messages, a merge exactly when it is a single
message, and an assignment exactly when it is a single scalar. -/
structure Fills (statements : List Block) (f : MessageField) : Prop where
  append_iff : (∃ item, statements = appendLoop f.name item) ↔ f.multiplicity = .many
  converts_iff : statements = appendLoop f.name "item.convert_pb2()" ↔
    f.multiplicity = .many ∧ ∃ name, f.type = .message name
  plain_iff : statements = appendLoop f.name "item" ↔
    f.multiplicity = .many ∧ ∃ name, f.type = .scalar name
  merge_iff : statements = mergeCall f.name ↔ f.multiplicity = .one ∧ ∃ name, f.type = .message name
  assign_iff : statements = assignment f.name ↔
    f.multiplicity = .one ∧ ∃ name, f.type = .scalar name

/-- A class has one method that makes a message, and it makes one of the given name and puts
something into the fields of the given names, one after the other. -/
def Reads (emitted : String × List Block) (made : String × List String) : Prop :=
  ∃ statements, bodies emitted.2 = [making made.1 statements] ∧
    List.Forall₂ Puts statements made.2

/-- A class has one method that makes a message, and it makes that of the given qualified name and
fills in its fields one after the other. -/
def Mirrors (emitted : String × List Block) (named : String × Message) : Prop :=
  ∃ statements, bodies emitted.2 = [making named.1 statements] ∧
    List.Forall₂ Fills statements named.2.fields

section Reading

variable {s s' rest rest' : List Block} {ss ss' : List (List Block)} {name name' : String}
  {names names' : List String}

theorem Fills.puts {f : MessageField} (h : Fills s f) : Puts s f.name := by
  cases hmultiplicity : f.multiplicity with
  | many => exact .inl (h.append_iff.mpr hmultiplicity)
  | one =>
      cases htype : f.type with
      | message name => exact .inr (.inl (h.merge_iff.mpr ⟨hmultiplicity, name, htype⟩))
      | scalar name => exact .inr (.inr (h.assign_iff.mpr ⟨hmultiplicity, name, htype⟩))

section Names

theorem line_around_inj {before after : String} :
    Block.line (before ++ name ++ after) = .line (before ++ name' ++ after) ↔ name = name' := by
  rw [Block.line.injEq, String.append_left_inj, String.append_right_inj]

theorem appendLoop_inj {item item' : String} :
    appendLoop name item = appendLoop name' item' ↔ name = name' ∧ item = item' := by
  constructor
  · intro h
    obtain ⟨hheader, hbody⟩ := List.cons.inj h
    obtain rfl := line_around_inj.mp hheader
    have hline := Block.nest.inj (List.head_eq_of_cons_eq hbody)
    exact ⟨rfl, line_around_inj.mp (List.head_eq_of_cons_eq hline)⟩
  · rintro ⟨rfl, rfl⟩
    rfl

theorem appendLoop_ne_line (name item text : String) : appendLoop name item ≠ [.line text] := by
  simp [appendLoop]

/-- A line with a name twice in it tells the name, since its length tells that of the name. -/
theorem name_eq_of_line (before between after : String)
    (heq : [Block.line (before ++ name ++ between ++ name ++ after)] =
      [Block.line (before ++ name' ++ between ++ name' ++ after)]) : name = name' := by
  have htext := congrArg String.toList (Block.line.inj (List.head_eq_of_cons_eq heq))
  simp only [String.toList_append, List.append_assoc, List.append_right_inj] at htext
  have hlength := congrArg List.length htext
  simp only [List.length_append] at hlength
  exact String.toList_inj.mp (List.append_inj_left htext (by omega))

theorem mergeCall_injective : Function.Injective mergeCall :=
  fun _ _ h => name_eq_of_line _ _ _ h

theorem assignment_injective : Function.Injective assignment := by
  intro name name' h
  refine name_eq_of_line "result." " = self." "" ?_
  simpa only [String.append_empty, assignment] using h

/-- A merge has an even number of characters and an assignment an odd one, whatever the names. -/
theorem mergeCall_ne_assignment (name name' : String) : mergeCall name ≠ assignment name' := by
  intro h
  have hlength := congrArg String.length (Block.line.inj (List.head_eq_of_cons_eq h))
  simp only [String.length_append] at hlength
  have hmerge : "result.".length + ".MergeFrom(self.".length + ".convert_pb2())".length = 38 := rfl
  have hassign : "result.".length + " = self.".length = 15 := rfl
  omega

theorem Puts.name_eq_of_appendLoop {item : String} (h : Puts (appendLoop name item) name') :
    name = name' := by
  rcases h with ⟨item', h⟩ | h | h
  · exact (appendLoop_inj.mp h).1
  · exact (appendLoop_ne_line _ _ _ h).elim
  · exact (appendLoop_ne_line _ _ _ h).elim

theorem Puts.name_eq_of_mergeCall (h : Puts (mergeCall name) name') : name = name' := by
  rcases h with ⟨item, h⟩ | h | h
  · exact (appendLoop_ne_line _ _ _ h.symm).elim
  · exact mergeCall_injective h
  · exact (mergeCall_ne_assignment _ _ h).elim

theorem Puts.name_eq_of_assignment (h : Puts (assignment name) name') : name = name' := by
  rcases h with ⟨item, h⟩ | h | h
  · exact (appendLoop_ne_line _ _ _ h.symm).elim
  · exact (mergeCall_ne_assignment _ _ h.symm).elim
  · exact assignment_injective h

/-- Statements tell the name of the field that they are for. -/
theorem Puts.name_unique (h : Puts s name) (h' : Puts s name') : name = name' := by
  rcases h with ⟨item, rfl⟩ | rfl | rfl
  · exact h'.name_eq_of_appendLoop
  · exact h'.name_eq_of_mergeCall
  · exact h'.name_eq_of_assignment

end Names

section Bodies

/-- Statements are one line, or one line with deeper ones below it. -/
theorem Puts.shape (h : Puts s name) :
    (∃ text, s = [.line text]) ∨ ∃ text below, s = [.line text, .nest below] := by
  rcases h with ⟨item, rfl⟩ | rfl | rfl
  · exact .inr ⟨_, _, rfl⟩
  · exact .inl ⟨_, rfl⟩
  · exact .inl ⟨_, rfl⟩

theorem Puts.ne_nil (h : Puts s name) : s ≠ [] := by
  rcases h.shape with ⟨text, rfl⟩ | ⟨text, below, rfl⟩ <;> exact List.cons_ne_nil _ _

theorem beginsDeeper_flatten (h : List.Forall₂ Puts ss names) :
    Block.beginsDeeper ss.flatten = false := by
  cases h with
  | nil => rfl
  | cons hs _ => rcases hs.shape with ⟨text, rfl⟩ | ⟨text, below, rfl⟩ <;> rfl

/-- Where the statements for one field end can be seen. -/
theorem Puts.append_inj (h : Puts s name) (h' : Puts s' name')
    (hrest : Block.beginsDeeper rest = false) (hrest' : Block.beginsDeeper rest' = false)
    (heq : s ++ rest = s' ++ rest') : s = s' ∧ rest = rest' := by
  rcases h.shape with ⟨text, rfl⟩ | ⟨text, below, rfl⟩ <;>
    rcases h'.shape with ⟨text', rfl⟩ | ⟨text', below', rfl⟩
  · exact List.append_inj heq rfl
  · obtain rfl := List.tail_eq_of_cons_eq heq
    cases hrest
  · obtain rfl := List.tail_eq_of_cons_eq heq.symm
    cases hrest'
  · exact List.append_inj heq rfl

/-- The statements for several fields tell their names. -/
theorem names_unique (h : List.Forall₂ Puts ss names) (h' : List.Forall₂ Puts ss' names')
    (heq : ss.flatten = ss'.flatten) : names = names' := by
  induction h generalizing ss' names' with
  | nil =>
      cases h' with
      | nil => rfl
      | cons hs' _ => exact absurd (List.append_eq_nil_iff.mp heq.symm).1 hs'.ne_nil
  | cons hs hrest ih =>
      cases h' with
      | nil => exact absurd (List.append_eq_nil_iff.mp heq).1 hs.ne_nil
      | cons hs' hrest' =>
          obtain ⟨rfl, hflatten⟩ := hs.append_inj hs' (beginsDeeper_flatten hrest)
            (beginsDeeper_flatten hrest') heq
          rw [hs.name_unique hs', ih hrest' hflatten]

/-- A method body tells what it makes. -/
theorem making_unique {wireName wireName' : String} (h : List.Forall₂ Puts ss names)
    (h' : List.Forall₂ Puts ss' names') (heq : making wireName ss = making wireName' ss') :
    (wireName, names) = (wireName', names') := by
  cases h with
  | nil =>
      cases h' with
      | nil => rw [line_around_inj.mp (List.head_eq_of_cons_eq heq)]
      | cons _ _ => simp [making] at heq
  | cons hs hputs =>
      cases h' with
      | nil => simp [making] at heq
      | cons hs' hputs' =>
          obtain ⟨hfirst, hrest⟩ := List.cons.inj heq
          have hname := line_around_inj.mp hfirst
          have hflatten := List.append_cancel_right hrest
          rw [hname, names_unique (.cons hs hputs) (.cons hs' hputs') hflatten]

theorem rightUnique_reads : Relator.RightUnique Reads := by
  rintro emitted made made' ⟨ss, hbodies, hputs⟩ ⟨ss', hbodies', hputs'⟩
  have hmaking := List.head_eq_of_cons_eq (hbodies.symm.trans hbodies')
  exact making_unique hputs hputs' hmaking

end Bodies

theorem Mirrors.reads {emitted : String × List Block} {named : String × Message}
    (h : Mirrors emitted named) :
    Reads emitted (named.1, named.2.fields.map MessageField.name) := by
  obtain ⟨statements, hbodies, hfills⟩ := h
  exact ⟨statements, hbodies, List.forall₂_map_right_iff.mpr (hfills.imp fun _ _ hf => hf.puts)⟩

end Reading

section Emitting

theorem bodies_append {before after : List Block} (hafter : Block.beginsDeeper after = false) :
    bodies (before ++ after) = bodies before ++ bodies after := by
  rw [bodies, Block.sections_append hafter, List.filter_append, List.map_append]
  rfl

theorem bodies_colon_of_eq {text : String} (h : text ++ ":" = header) (body : List Block) :
    bodies (Block.colon text body) = [body] := by
  simp [bodies, h]

theorem bodies_colon_of_ne {text : String} (h : text ++ ":" ≠ header) (body : List Block) :
    bodies (Block.colon text body) = [] := by
  simp [bodies, h]

variable {name item : String} {how : Conversion} {f : MessageField}

theorem conversionBlocks_eq_appendLoop_iff :
    DataClass.conversionBlocks name how = appendLoop name item ↔
      how = .append true ∧ item = "item.convert_pb2()" ∨ how = .append false ∧ item = "item" := by
  cases how with
  | append converts =>
      have hloop : DataClass.conversionBlocks name (.append converts) =
        appendLoop name (if converts then "item.convert_pb2()" else "item") := rfl
      rw [hloop, appendLoop_inj]
      cases converts <;> simp [eq_comm]
  | merge => exact iff_of_false (Ne.symm (appendLoop_ne_line _ _ _)) (by simp)
  | assign => exact iff_of_false (Ne.symm (appendLoop_ne_line _ _ _)) (by simp)

theorem conversionBlocks_eq_mergeCall_iff :
    DataClass.conversionBlocks name how = mergeCall name ↔ how = .merge := by
  cases how with
  | append converts => exact iff_of_false (appendLoop_ne_line _ _ _) nofun
  | merge => exact iff_of_true rfl rfl
  | assign => exact iff_of_false (mergeCall_ne_assignment name name).symm nofun

theorem conversionBlocks_eq_assignment_iff :
    DataClass.conversionBlocks name how = assignment name ↔ how = .assign := by
  cases how with
  | append converts => exact iff_of_false (appendLoop_ne_line _ _ _) nofun
  | merge => exact iff_of_false (mergeCall_ne_assignment name name) nofun
  | assign => exact iff_of_true rfl rfl

/-- The statements of a conversion that fits a field fill it in. -/
theorem fills_conversionBlocks (h : how.Fits f) :
    Fills (DataClass.conversionBlocks f.name how) f where
  append_iff := by
    rw [← h.append_iff]
    simp [conversionBlocks_eq_appendLoop_iff, exists_or, or_comm]
  converts_iff := by
    rw [← h.converts_iff]
    simp [conversionBlocks_eq_appendLoop_iff]
  plain_iff := by
    rw [← h.plain_iff]
    simp [conversionBlocks_eq_appendLoop_iff]
  merge_iff := conversionBlocks_eq_mergeCall_iff.trans h.merge_iff
  assign_iff := conversionBlocks_eq_assignment_iff.trans h.assign_iff

end Emitting

end WireMethod

namespace DataClass

open WireMethod

variable {c : DataClass}

theorem bodies_docBlocks (c : DataClass) : bodies c.docBlocks = [] := by
  have hproperties : ∀ fields : List Block, bodies
      (if c.fields.isEmpty then [] else [.line "Properties:", .nest fields]) = [] := by
    intro fields
    split
    · rfl
    · exact bodies_colon_of_ne (by decide : "Properties" ++ ":" ≠ header) fields
  have hdeeper : ∀ fields : List Block, Block.beginsDeeper
      (if c.fields.isEmpty then [] else [.line "Properties:", .nest fields]) = false := by
    intro fields
    split <;> rfl
  rw [docBlocks, bodies_append rfl, bodies_append (hdeeper _), bodies_append rfl,
    bodies_append (Block.beginsDeeper_map_line _), hproperties]
  simp [bodies]

theorem bodies_constructorBlocks (c : DataClass) : bodies c.constructorBlocks = [] := by
  rw [constructorBlocks, bodies_append rfl, bodies_colon_of_ne (by decide)]
  simp [bodies, header]

theorem bodies_fromSourceBlocks (c : DataClass) (source : FieldSource) :
    bodies (c.fromSourceBlocks source) = [] := by
  refine bodies_colon_of_ne ?_ _
  cases source <;> decide

theorem bodies_toWireBlocks (h : c.fields.entries.length = c.conversions.length) :
    bodies c.toWireBlocks = [making c.path.wireName
      (c.conversions.map fun conversion => conversionBlocks conversion.1 conversion.2)] := by
  have hmessage : ∀ before : String,
      before ++ c.newMessage = before ++ "pb2." ++ c.path.wireName ++ "()" := by
    intro before
    simp only [newMessage, String.append_assoc]
  rw [toWireBlocks, bodies_colon_of_eq rfl, hmessage, hmessage]
  refine congrArg ([·]) ?_
  cases hconversions : c.conversions with
  | nil =>
      have hempty : c.fields.isEmpty = true := by
        rw [hconversions] at h
        exact List.isEmpty_iff.mpr (List.eq_nil_of_length_eq_zero h)
      rw [if_pos hempty]
      rfl
  | cons conversion rest =>
      have hsome : ¬ c.fields.isEmpty = true := by
        intro hempty
        rw [hconversions, List.isEmpty_iff.mp hempty] at h
        cases h
      rw [if_neg hsome, List.flatMap_def]
      rfl

theorem bodies_body (c : DataClass) : bodies (c.body .wire) = bodies c.toWireBlocks := by
  have hblank : bodies [.blank] = [] := rfl
  rw [body, code, bodies_append rfl, bodies_append rfl, bodies_append rfl, bodies_append rfl,
    bodies_append rfl, bodies_append rfl, bodies_append rfl]
  simp [bodies_docBlocks, bodies_constructorBlocks, bodies_fromSourceBlocks, hblank]

/-- A class that matches a message mirrors it in its lines. -/
theorem Matches.mirrors {named : String × Message} (h : c.Matches named) :
    WireMethod.Mirrors (c.heading, c.body .wire) named := by
  refine ⟨_, (bodies_body c).trans (h.wireName_eq ▸ bodies_toWireBlocks h.complete), ?_⟩
  rw [List.forall₂_map_left_iff]
  refine h.fields.imp ?_
  rintro conversion f ⟨hname, hfits⟩
  rw [hname]
  exact fills_conversionBlocks hfits

/-- The modules with data classes for an accepted service consist of classes that can be read in one
way.  What they make and fill in by their lines is, as a collection of names with the names of
fields, what the messages of the service are and hold, and paired off accordingly every class mirrors
its message. -/
theorem accepted_service_classes_mirror_messages {services : List Service} {s : Service}
    (haccepted : (Service.checkAll services).isOk = true) (hs : s ∈ services) (side : Side) :
    (∃ made, List.Forall₂ Reads (Block.sections (s.dataModule side)) made ∧
      (∀ other, List.Forall₂ Reads (Block.sections (s.dataModule side)) other → other = made) ∧
      made.Perm ((Descriptor.ofService s).allMessages.map fun named =>
        (named.1, named.2.fields.map MessageField.name))) ∧
      ∃ messages, List.Forall₂ WireMethod.Mirrors (Block.sections (s.dataModule side)) messages ∧
        messages.Perm (Descriptor.ofService s).allMessages := by
  have hwellFormed := (Service.isOk_checkAll_iff services).mp haccepted s hs
  obtain ⟨messages, hmatches, hperm⟩ := exists_matching hwellFormed
  have hmirrors : List.Forall₂ WireMethod.Mirrors (Block.sections (s.dataModule side))
      messages := by
    rw [sections_dataModule, List.forall₂_map_left_iff]
    exact hmatches.imp fun _ _ h => h.mirrors
  have hreads : List.Forall₂ Reads (Block.sections (s.dataModule side))
      (messages.map fun named => (named.1, named.2.fields.map MessageField.name)) := by
    rw [List.forall₂_map_right_iff]
    exact hmirrors.imp fun _ _ h => h.reads
  exact ⟨⟨_, hreads, fun other hother => rightUnique_reads.forall₂ hother hreads, hperm.map _⟩,
    messages, hmirrors, hperm⟩

end DataClass

namespace WireMethodsWitness

open LoweringWitness WireMethod

theorem orders_classes_mirror_messages :
    (Service.checkAll [orders]).isOk = true ∧ orders ∈ [orders] ∧
      (∃ made, List.Forall₂ Reads (Block.sections (orders.dataModule .server)) made ∧
        made.Perm [("OrderDeskPlaceArg", ["address", "state"]),
          ("OrderDeskPlaceArg.Address", ["stops", "street"]),
          ("OrderDeskPlaceArg.Address.Stops", ["lat"]), ("OrderDeskPlaceResult", ["data"]),
          ("OrderDeskPlaceResult.Data", ["id"])]) ∧
      ∃ messages, List.Forall₂ Mirrors (Block.sections (orders.dataModule .server)) messages ∧
        messages.Perm (Descriptor.ofService orders).allMessages := by
  have haccepted : (Service.checkAll [orders]).isOk = true := by decide
  have hmem : orders ∈ [orders] := List.mem_singleton.mpr rfl
  obtain ⟨⟨made, hreads, -, hmade⟩, hmirrors⟩ :=
    DataClass.accepted_service_classes_mirror_messages haccepted hmem .server
  refine ⟨haccepted, hmem, ⟨made, hreads, hmade.trans (.of_eq ?_)⟩, hmirrors⟩
  decide +kernel

/-- The same containers in another order. -/
example : (DataClass.ofService orders).map (fun c => c.path.wireName) =
    ["OrderDeskPlaceArg.Address.Stops", "OrderDeskPlaceArg.Address", "OrderDeskPlaceArg",
      "OrderDeskPlaceResult.Data", "OrderDeskPlaceResult"] := by
  decide +kernel

end WireMethodsWitness

end ServiceGen

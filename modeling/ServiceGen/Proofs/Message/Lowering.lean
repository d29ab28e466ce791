import Mathlib.Data.List.Forall2
import ServiceGen.Proofs.Message.Nesting

/-!
What the messages of an accepted service hold.  Every container has its message, every field of
the container that is not void has its field in that message, and nothing else is in there.
-/

namespace ServiceGen

namespace DataType

/-- The type of one value of a field: that of the elements for a list. -/
def single (t : DataType) : DataType :=
  t.element?.getD t

theorem wireName?_scalar {t : DataType} {s : Scalar} (hkind : t.kind = .scalar s) :
    t.wireName? = some s.wireName := by
  cases t
  cases hkind
  rfl

theorem wireName?_enum {t underlying : DataType} {name : Option String} {members : Fields}
    (hkind : t.kind = .enum name underlying members) : t.wireName? = underlying.wireName? := by
  cases t
  cases hkind
  rfl

theorem wireName?_dict {t : DataType} {fields : Fields} (hkind : t.kind = .dict fields) :
    t.wireName? = none := by
  cases t
  cases hkind
  rfl

end DataType

/-- The field of a message that carries a named type: many values of it for a list, of a message
named for the field if these are dicts, and of a scalar otherwise. -/
structure MessageField.Carries (f : MessageField) (field : String × DataType) : Prop where
  name_eq : f.name = field.1
  many_iff : f.multiplicity = .many ↔ field.2.isList = true
  scalar_iff : ∀ name, f.type = .scalar name ↔ field.2.single.wireName? = some name
  message_iff : ∀ name, f.type = .message name ↔
    field.2.single.isDict = true ∧ name = Naming.pretty field.1

/-- The message for a container. -/
structure MessageOf.Holds (m : Message) (c : Contents) : Prop where
  name_eq : m.name = c.path.localName
  fields : List.Forall₂ MessageField.Carries m.fields c.sent
  numbers : m.fields.map MessageField.number = List.range' 1 m.fields.length
  declared : ∀ before f after name, m.items = before ++ .field f :: after →
    f.type = .message name → ∃ inner, .message inner ∈ before ∧ inner.name = name

namespace Encoding

/-- How one value of a type is carried by a field of a name. -/
structure Fits (e : Encoding) (name : String) (t : DataType) : Prop where
  scalar_iff : ∀ wire, e.type = .scalar wire ↔ t.wireName? = some wire
  message_iff : ∀ wire, e.type = .message wire ↔ t.isDict = true ∧ wire = Naming.pretty name
  needs : ∀ wire, e.type = .message wire → ∃ inner, e.needs = some inner ∧ inner.name = wire

theorem fits_scalar {t : DataType} {wire : String} (hwire : t.wireName? = some wire)
    (hdict : t.isDict = false) (name : String) :
    (⟨.scalar wire, none⟩ : Encoding).Fits name t := by
  refine ⟨?_, ?_, ?_⟩ <;> simp [hwire, hdict]

theorem fits_ofItems {t : DataType} {fields : Fields} (hkind : t.kind = .dict fields)
    (name : String) (items : List MessageItem) : (ofItems name items).Fits name t := by
  refine ⟨?_, ?_, ?_⟩ <;>
    simp [ofItems, DataType.wireName?_dict hkind, DataType.isDict, hkind, eq_comm]

end Encoding

theorem elementEncoding?_scalar (name : String) {t : DataType} {s : Scalar}
    (hkind : t.kind = .scalar s) :
    elementEncoding? name t = some ⟨.scalar s.wireName, none⟩ := by
  cases t
  cases hkind
  rfl

theorem elementEncoding?_enum (name : String) {t underlying : DataType}
    {enumName : Option String} {members : Fields}
    (hkind : t.kind = .enum enumName underlying members) :
    elementEncoding? name t = Encoding.ofScalar? underlying := by
  cases t
  cases hkind
  rfl

theorem elementEncoding?_dict (name : String) {t : DataType} {fields : Fields}
    (hkind : t.kind = .dict fields) :
    elementEncoding? name t = some (.ofItems name (messageItems 0 fields.entries)) := by
  cases t
  cases hkind
  rfl

theorem fieldItems_list (name : String) (number : Nat) {t element : DataType}
    (hkind : t.kind = .list element) :
    fieldItems name number t =
      Encoding.place .many name number (elementEncoding? name element) := by
  cases t
  cases hkind
  rfl

theorem fieldItems_void (name : String) (number : Nat) {t : DataType} (hvoid : t.isVoid = true) :
    fieldItems name number t = [] := by
  obtain ⟨kind⟩ := t
  cases kind <;> first | rfl | simp [DataType.isVoid] at hvoid

/-- A type that is no list is carried as an element of a list would be, but once. -/
theorem fieldItems_of_not_list (name : String) (number : Nat) {t : DataType}
    (hlist : t.isList = false) :
    fieldItems name number t = Encoding.place .one name number (elementEncoding? name t) := by
  obtain ⟨kind⟩ := t
  cases kind with
  | list element => simp [DataType.isList] at hlist
  | _ => rfl

/-- Elements of a well-formed list have an encoding. -/
theorem exists_elementEncoding? {t : DataType} (h : t.WellFormed) (hvoid : t.isVoid = false)
    (hlist : t.isList = false) (name : String) :
    ∃ e, elementEncoding? name t = some e ∧ e.Fits name t := by
  cases h with
  | void hkind => simp [DataType.isVoid, hkind] at hvoid
  | list hkind => simp [DataType.isList, hkind] at hlist
  | scalar hkind =>
      refine ⟨_, elementEncoding?_scalar name hkind, ?_⟩
      exact Encoding.fits_scalar (DataType.wireName?_scalar hkind)
        (by simp [DataType.isDict, hkind]) name
  | dict hkind =>
      exact ⟨_, elementEncoding?_dict name hkind, Encoding.fits_ofItems hkind name _⟩
  | @enum _ underlying _ _ hkind hscalar =>
      cases hunderlying : underlying.kind with
      | scalar s =>
          have hwire := DataType.wireName?_scalar hunderlying
          refine ⟨⟨.scalar s.wireName, none⟩, ?_, ?_⟩
          · rw [elementEncoding?_enum name hkind, Encoding.ofScalar?, hwire]
            rfl
          · exact Encoding.fits_scalar ((DataType.wireName?_enum hkind).trans hwire)
              (by simp [DataType.isDict, hkind]) name
      | _ => simp [DataType.isScalar, hunderlying] at hscalar

/-- A well-formed type that is not void is carried, by a field that comes right behind the message
that it needs. -/
theorem exists_fieldItems {t : DataType} (h : t.WellFormed) (hvoid : t.isVoid = false)
    (name : String) (number : Nat) :
    ∃ multiplicity e, fieldItems name number t = Encoding.place multiplicity name number (some e) ∧
      (multiplicity = .many ↔ t.isList = true) ∧ e.Fits name t.single := by
  cases hkind : t.kind with
  | list element =>
      obtain ⟨helementVoid, helementList, helement⟩ := (DataType.wellFormed_list_iff hkind).mp h
      obtain ⟨e, he, hfits⟩ := exists_elementEncoding? helement helementVoid helementList name
      refine ⟨.many, e, ?_, by simp [DataType.isList, hkind], ?_⟩
      · rw [fieldItems_list name number hkind, he]
      · simpa [DataType.single, DataType.element?, hkind] using hfits
  | _ =>
      have hlist : t.isList = false := by simp [DataType.isList, hkind]
      obtain ⟨e, he, hfits⟩ := exists_elementEncoding? h hvoid hlist name
      refine ⟨.one, e, ?_, by simp [hlist], ?_⟩
      · rw [fieldItems_of_not_list name number hlist, he]
      · simpa [DataType.single, DataType.element?, hkind] using hfits

/-- Items that carry named types one after the other, with the numbers that follow `number`, each
field behind the message that it needs. -/
inductive LaysOut : Nat → List (String × DataType) → List MessageItem → Prop
  | nil (number : Nat) : LaysOut number [] []
  | cons {number : Nat} {field : String × DataType} {rest : List (String × DataType)}
      {items : List MessageItem} (needs : Option Message) (f : MessageField)
      (hnumber : f.number = number + 1) (hcarries : f.Carries field)
      (hneeds : ∀ name, f.type = .message name → ∃ inner, needs = some inner ∧ inner.name = name)
      (hrest : LaysOut (number + 1) rest items) :
      LaysOut number (field :: rest)
        ((needs.map MessageItem.message).toList ++ [.field f] ++ items)

/-- The items for well-formed types carry all of them but the void ones. -/
theorem laysOut_messageItems {fields : List (String × DataType)}
    (htypes : ∀ field ∈ fields, field.2.WellFormed) (number : Nat) :
    LaysOut number (fields.filter fun field => !field.2.isVoid) (messageItems number fields) := by
  induction fields generalizing number with
  | nil => exact .nil number
  | cons field rest ih =>
      obtain ⟨name, t⟩ := field
      rw [List.forall_mem_cons] at htypes
      cases hvoid : t.isVoid with
      | true => simpa [messageItems, hvoid] using ih htypes.2 number
      | false =>
          obtain ⟨multiplicity, e, hitems, hmany, hfits⟩ :=
            exists_fieldItems htypes.1 hvoid name (number + 1)
          have hcarries : (⟨multiplicity, e.type, name, number + 1⟩ : MessageField).Carries
              (name, t) := ⟨rfl, hmany, hfits.scalar_iff, hfits.message_iff⟩
          simpa [messageItems, hvoid, hitems, Encoding.place] using
            LaysOut.cons e.needs _ rfl hcarries hfits.needs (ih htypes.2 (number + 1))

namespace LaysOut

variable {number : Nat} {fields : List (String × DataType)} {items : List MessageItem}

theorem filterMap_field?_cons (needs : Option Message) (f : MessageField)
    (items : List MessageItem) :
    ((needs.map MessageItem.message).toList ++ [MessageItem.field f] ++ items).filterMap
      MessageItem.field? = f :: items.filterMap MessageItem.field? := by
  cases needs <;> rfl

theorem carries (h : LaysOut number fields items) :
    List.Forall₂ MessageField.Carries (items.filterMap MessageItem.field?) fields := by
  induction h with
  | nil => exact .nil
  | cons needs f _ hcarries _ _ ih =>
      rw [filterMap_field?_cons]
      exact .cons hcarries ih

/-- The numbers count on without gap. -/
theorem numbers (h : LaysOut number fields items) :
    (items.filterMap MessageItem.field?).map MessageField.number =
      List.range' (number + 1) (items.filterMap MessageItem.field?).length := by
  induction h with
  | nil => rfl
  | cons needs f hnumber _ _ _ ih =>
      rw [filterMap_field?_cons, List.map_cons, List.length_cons, List.range'_succ, ih, hnumber]

/-- A message is written before the field that refers to it. -/
theorem declared (h : LaysOut number fields items) :
    ∀ before f after name, items = before ++ .field f :: after → f.type = .message name →
      ∃ inner, MessageItem.message inner ∈ before ∧ inner.name = name := by
  induction h with
  | nil => simp
  | cons needs f hnumber _ hneeds _ ih =>
      intro before g after name hsplit htype
      -- the field that is asked for is the first one or comes later, and there is one item more in
      -- front of the later ones when the first field has a message
      cases needs with
      | none =>
          cases before with
          | nil =>
              obtain ⟨rfl, -⟩ : f = g ∧ _ := by simpa using hsplit
              simpa using hneeds name htype
          | cons head before =>
              obtain ⟨-, hsplit⟩ := List.cons.inj hsplit
              obtain ⟨inner, hinner, hname⟩ := ih before g after name hsplit htype
              exact ⟨inner, List.mem_cons_of_mem _ hinner, hname⟩
      | some needed =>
          cases before with
          | nil => simp at hsplit
          | cons head before =>
              cases before with
              | nil =>
                  obtain ⟨rfl, rfl, -⟩ : .message needed = head ∧ f = g ∧ _ := by
                    simpa using hsplit
                  obtain ⟨inner, hinner, hname⟩ := hneeds name htype
                  exact ⟨needed, by simp, Option.some.inj hinner ▸ hname⟩
              | cons second before =>
                  obtain ⟨-, -, hsplit⟩ : .message needed = head ∧ .field f = second ∧
                      _ = before ++ .field g :: after := by simpa using hsplit
                  obtain ⟨inner, hinner, hname⟩ := ih before g after name hsplit htype
                  exact ⟨inner, by simp [hinner], hname⟩

end LaysOut

open MessageItem

/-- How often a field occurs and its number have no part in the messages of its items. -/
theorem messagesInAll_place (outer : String) (multiplicity : Multiplicity) (name : String)
    (number : Nat) (e : Option Encoding) :
    messagesInAll outer (Encoding.place multiplicity name number e) =
      match e.bind Encoding.needs with
      | some inner => messagesIn outer (.message inner)
      | none => [] := by
  cases e with
  | none => rfl
  | some e =>
      cases hneeds : e.needs <;>
        simp [Encoding.place, messagesInAll, messagesIn, hneeds]

/-- A message under its qualified name is the one for a container. -/
structure Lowers (named : String × Message) (c : Contents) : Prop where
  qualified : named.1 = c.path.wireName
  holds : named.2.Holds c

/-- The message for a container, under its qualified name. -/
def Contents.named (c : Contents) : String × Message :=
  (c.path.wireName, ⟨c.path.localName, messageItems 0 c.fields⟩)

/-- The items for the fields of a well-formed container make the message for it. -/
theorem lowers_named {c : Contents} (hc : c.WellFormed) : Lowers c.named c :=
  have hitems := laysOut_messageItems hc 0
  ⟨rfl, rfl, hitems.carries, hitems.numbers, hitems.declared⟩

/-- The messages inside of the items for named types are those for the containers below these
types, if that is so for each of the types. -/
theorem messagesInAll_messageItems {fields : List (String × DataType)}
    (hfields : ∀ field ∈ fields, ∀ (path : TypePath) name number,
      messagesInAll path.wireName (fieldItems name number field.2) =
        (Contents.ofType (path.child name) field.2).map Contents.named)
    (path : TypePath) (number : Nat) :
    messagesInAll path.wireName (messageItems number fields) =
      (Contents.below path fields).map Contents.named := by
  induction fields generalizing number with
  | nil => rfl
  | cons field rest ih =>
      obtain ⟨name, t⟩ := field
      rw [List.forall_mem_cons] at hfields
      rw [Contents.below]
      cases hvoid : t.isVoid with
      | true => simpa [messageItems, hvoid, Contents.ofType_void] using ih hfields.2 number
      | false =>
          simp only [messageItems, hvoid, Bool.false_eq_true, ↓reduceIte, messagesInAll_append,
            List.map_append]
          rw [hfields.1, ih hfields.2]

/-- The messages inside of the items for a well-formed type are those for its containers. -/
theorem messagesInAll_fieldItems {t : DataType} (h : t.WellFormed) :
    ∀ (path : TypePath) name number,
      messagesInAll path.wireName (fieldItems name number t) =
        (Contents.ofType (path.child name) t).map Contents.named := by
  -- the path stays general: inside of a dict it goes on with the name of the field
  induction h with
  | @void t hkind =>
      intro path name number
      rw [Contents.ofType_void _ (by simp [DataType.isVoid, hkind]), fieldItems_void name number
        (by simp [DataType.isVoid, hkind])]
      rfl
  | @scalar t s hkind =>
      intro path name number
      have hlist : t.isList = false := by simp [DataType.isList, hkind]
      rw [Contents.ofType_eq_nil _ (by simp [DataType.isDict, hkind]) hlist,
        fieldItems_of_not_list name number hlist, elementEncoding?_scalar name hkind,
        messagesInAll_place]
      rfl
  | @enum t underlying _ _ hkind _ _ =>
      intro path name number
      have hlist : t.isList = false := by simp [DataType.isList, hkind]
      rw [Contents.ofType_eq_nil _ (by simp [DataType.isDict, hkind]) hlist,
        fieldItems_of_not_list name number hlist, elementEncoding?_enum name hkind,
        messagesInAll_place, Encoding.ofScalar?]
      cases underlying.wireName? <;> rfl
  | @list t element hkind hvoid hlist helement ih =>
      intro path name number
      -- the elements are no lists, so the list has the messages of a field of their type
      have hone := ih path name number
      rw [fieldItems_of_not_list name number hlist, messagesInAll_place] at hone
      rw [Contents.ofType_list _ hkind, fieldItems_list name number hkind, messagesInAll_place]
      exact hone
  | @dict t fields hkind hnames htypes ih =>
      intro path name number
      have hlist : t.isList = false := by simp [DataType.isList, hkind]
      have hbelow := messagesInAll_messageItems ih (path.child name) 0
      rw [Contents.ofType_dict _ hkind, fieldItems_of_not_list name number hlist,
        elementEncoding?_dict name hkind, messagesInAll_place, Contents.withBelow, List.map_cons,
        ← hbelow, Contents.named, TypePath.wireName_child, TypePath.localName_child]
      rfl

/-- Void fields have no items and take no number. -/
theorem messageItems_filter (fields : List (String × DataType)) (number : Nat) :
    messageItems number (fields.filter fun field => !field.2.isVoid) =
      messageItems number fields := by
  induction fields generalizing number with
  | nil => rfl
  | cons field rest ih =>
      obtain ⟨name, t⟩ := field
      cases hvoid : t.isVoid <;> simp [messageItems, hvoid, ih]

/-- The message for a whole container, and those inside of it. -/
theorem messages_withBelow {c : Contents} (hc : c.WellFormed)
    (hwire : c.path.wireName = c.path.messageName)
    (hlocal : c.path.localName = c.path.messageName) :
    (c.path.messageName, ⟨c.path.messageName, messageItems 0 c.fields⟩) ::
        messagesInAll c.path.messageName (messageItems 0 c.fields) =
      c.withBelow.map Contents.named := by
  have hbelow := messagesInAll_messageItems
    (fun field hfield => messagesInAll_fieldItems (hc field hfield)) c.path 0
  rw [Contents.withBelow, List.map_cons, ← hbelow, Contents.named, hwire, hlocal]

theorem map_eq_map_of_forall₂ {α β γ : Type} {R : α → β → Prop} {f : α → γ} {g : β → γ}
    {as : List α} {bs : List β} (h : List.Forall₂ R as bs) (hfg : ∀ a b, R a b → f a = g b) :
    as.map f = bs.map g := by
  rw [← List.forall₂_eq_eq_eq, List.forall₂_map_left_iff, List.forall₂_map_right_iff]
  exact h.imp hfg

namespace Descriptor

theorem argumentMessage_eq {o : Operation} (ho : o.WellFormed) (service : String) :
    argumentMessage service o =
      ⟨(Contents.argument service o).path.messageName,
        messageItems 0 (Contents.argument service o).fields⟩ := by
  rw [argumentMessage, message, Operation.entries_sentArguments ho, messageItems_filter]
  rfl

theorem resultMessage_eq (service : String) (o : Operation) :
    resultMessage service o =
      ⟨(Contents.result service o).path.messageName,
        messageItems 0 (Contents.result service o).fields⟩ := by
  rw [resultMessage, message, Operation.entries_sentResult, messageItems_filter]
  rfl

/-- The messages of a well-formed service are those for its containers, in their order. -/
theorem allMessages_eq {s : Service} (hs : s.WellFormed) :
    (ofService s).allMessages = (Contents.ofService s).map Contents.named := by
  rw [allMessages, ofService, List.flatMap_assoc, Contents.ofService, List.map_flatMap]
  refine List.flatMap_congr fun o ho => ?_
  have hargument := messages_withBelow (Operation.wellFormed_argument (hs o ho) s.name)
    (TypePath.wireName_top s.name o.name .argument) rfl
  have hresult := messages_withBelow (Operation.wellFormed_result (hs o ho) s.name)
    (TypePath.wireName_top s.name o.name .result) rfl
  simp only [List.flatMap_cons, List.flatMap_nil, List.append_nil, argumentMessage_eq (hs o ho),
    resultMessage_eq]
  rw [List.map_append, ← hargument, ← hresult]

theorem forall₂_allMessages {s : Service} (hs : s.WellFormed) :
    List.Forall₂ Lowers (ofService s).allMessages (Contents.ofService s) := by
  rw [allMessages_eq hs, List.forall₂_map_left_iff, List.forall₂_same]
  exact fun c hc => lowers_named (Contents.wellFormed_of_mem_ofService hs c hc)

/-- No field of an accepted service is lost.  The messages at every depth are those for its
containers, each with exactly the fields that are not void, in the order of their declaration and
numbered from one; lists and nothing else are repeated, and a message that a field refers to comes
before the field.  Every call names two messages of the descriptor. -/
theorem accepted_service_lowers_every_field {services : List Service} {s : Service}
    (haccepted : (Service.checkAll services).isOk = true) (hs : s ∈ services) :
    List.Forall₂ Lowers (ofService s).allMessages (Contents.ofService s) ∧
      ∀ call ∈ (ofService s).calls,
        (∃ m ∈ (ofService s).messages, m.name = call.argument) ∧
          ∃ m ∈ (ofService s).messages, m.name = call.result := by
  have hwellFormed := (Service.isOk_checkAll_iff services).mp haccepted s hs
  refine ⟨forall₂_allMessages hwellFormed, ?_⟩
  intro call hcall
  obtain ⟨o, ho, rfl⟩ := List.mem_map.mp hcall
  have hargument : argumentMessage s.name o ∈ (ofService s).messages :=
    List.mem_flatMap.mpr ⟨o, ho, List.mem_cons_self⟩
  have hresult : resultMessage s.name o ∈ (ofService s).messages :=
    List.mem_flatMap.mpr ⟨o, ho, List.mem_cons_of_mem _ List.mem_cons_self⟩
  exact ⟨⟨_, hargument, rfl⟩, ⟨_, hresult, rfl⟩⟩

end Descriptor

namespace LoweringWitness

open DataType

/-- An operation with a dict inside of a list inside of a dict, a void argument, and a list of
dicts for an answer. -/
def orders : Service where
  name := "order_desk"
  declaredAs := ⟨"app.desk", "order_desk"⟩
  operations := [{
    Operation.named "place" with
    arguments := [
      .ofType "address" (dict ⟨[
        ("stops", list (dict ⟨[("lat", scalar .float), ("gone", void)]⟩)),
        ("street", scalar .string)]⟩),
      .ofType "unused" void,
      .ofType "state" (enumeration (some "State") (scalar .int) ⟨[("OK", scalar .int)]⟩)]
    result := list (dict ⟨[("id", scalar .int)]⟩) }]
  implementation := none
  webNamespace := none

theorem orders_lowers_every_field :
    (Service.checkAll [orders]).isOk = true ∧ orders ∈ [orders] ∧
      List.Forall₂ Lowers (Descriptor.ofService orders).allMessages
        (Contents.ofService orders) :=
  ⟨by decide, List.mem_singleton.mpr rfl,
    (Descriptor.accepted_service_lowers_every_field
      (by decide : (Service.checkAll [orders]).isOk = true) (List.mem_singleton.mpr rfl)).1⟩

end LoweringWitness

end ServiceGen

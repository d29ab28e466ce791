import ServiceGen.Proofs.Message.Lowering

/-!
The names of messages in their scopes.  At the top of a descriptor two messages of the same name
come from two operations of the same pretty name, and inside of a message from two fields whose
values are dicts and whose pretty names are the same; nothing else can make names meet, and nothing
looks at pretty names before messages are named by them.
-/

namespace ServiceGen

open MessageItem

/-- The words for the two containers end differently. -/
theorem Container.append_word_inj {a b : String} {c d : Container} :
    a ++ c.word = b ++ d.word ↔ a = b ∧ c = d := by
  constructor
  · intro h
    have hlast := congrArg (fun s => s.toList.getLast?) h
    obtain rfl : c = d := by
      cases c <;> cases d <;> simp [word] at hlast ⊢
    exact ⟨(String.append_left_inj c.word).mp h, rfl⟩
  · rintro ⟨rfl, rfl⟩
    rfl

theorem TypePath.messageName_top_inj {service a b : String} {c d : Container} :
    (top service a c).messageName = (top service b d).messageName ↔
      Naming.pretty a = Naming.pretty b ∧ c = d := by
  rw [messageName, messageName, top, top, Container.append_word_inj, String.append_right_inj]

theorem TypePath.className_top_inj {service a b : String} {c d : Container} :
    (top service a c).className = (top service b d).className ↔
      Naming.pretty a = Naming.pretty b ∧ c = d := by
  simp only [className, top, String.intercalate_nil, String.append_empty]
  exact Container.append_word_inj

/-- Names that tell whole containers apart by the pretty names of operations are distinct exactly
when these are. -/
theorem Contents.nodup_map_tops_iff {s : Service} {name : TypePath → String}
    (hname : ∀ {a b : String} {c d : Container}, name (.top s.name a c) = name (.top s.name b d) ↔
      Naming.pretty a = Naming.pretty b ∧ c = d) :
    ((tops s).map fun c => name c.path).Nodup ↔
      (s.operations.map fun o => Naming.pretty o.name).Nodup := by
  rw [tops, List.map_flatMap, List.nodup_iff_pairwise_ne, List.pairwise_flatMap,
    List.nodup_iff_pairwise_ne, List.pairwise_map]
  have hone : ∀ o ∈ s.operations, ([argument s.name o, result s.name o].map
      fun c => name c.path).Pairwise (· ≠ ·) := by
    simp [argument, result, hname]
  have htwo : ∀ o p : Operation,
      (∀ x ∈ [argument s.name o, result s.name o].map fun c => name c.path,
        ∀ y ∈ [argument s.name p, result s.name p].map fun c => name c.path, x ≠ y) ↔
      Naming.pretty o.name ≠ Naming.pretty p.name := by
    simp [argument, result, hname]
  exact ⟨fun h => h.2.imp fun hne => (htwo _ _).mp hne,
    fun h => ⟨hone, h.imp fun hne => (htwo _ _).mpr hne⟩⟩

/-- The names under which a container has others directly inside of it: the pretty names of the
fields that hold a dict or a list of dicts. -/
def Contents.nestedNames (c : Contents) : List String :=
  (c.fields.filter fun field => field.2.single.isDict).map fun field => Naming.pretty field.1

theorem filterMap_message?_place (multiplicity : Multiplicity) (name : String) (number : Nat)
    (e : Option Encoding) :
    (Encoding.place multiplicity name number e).filterMap message? =
      (e.bind Encoding.needs).toList := by
  cases e with
  | none => rfl
  | some e => cases hneeds : e.needs <;> simp [Encoding.place, message?, hneeds]

/-- Only dicts need a message, and it is named for the field. -/
theorem map_name_needs (name : String) (t : DataType) :
    ((elementEncoding? name t).bind Encoding.needs).map MessageOf.name =
      if t.isDict then some (Naming.pretty name) else none := by
  obtain ⟨kind⟩ := t
  cases kind with
  | enum _ underlying _ =>
      rw [elementEncoding?_enum name rfl, Encoding.ofScalar?]
      cases underlying.wireName? <;> rfl
  | _ => rfl

theorem names_fieldItems (name : String) (number : Nat) (t : DataType) :
    ((fieldItems name number t).filterMap message?).map MessageOf.name =
      if t.single.isDict then [Naming.pretty name] else [] := by
  have hplace : ∀ multiplicity (u : DataType),
      ((Encoding.place multiplicity name number (elementEncoding? name u)).filterMap
          message?).map MessageOf.name = if u.isDict then [Naming.pretty name] else [] := by
    intro multiplicity u
    rw [filterMap_message?_place, ← Option.toList_map, map_name_needs]
    split <;> rfl
  cases hkind : t.kind with
  | list element =>
      rw [fieldItems_list name number hkind, hplace]
      simp [DataType.single, DataType.element?, hkind]
  | _ =>
      rw [fieldItems_of_not_list name number (by simp [DataType.isList, hkind]), hplace]
      simp [DataType.single, DataType.element?, hkind]

theorem names_messageItems (number : Nat) (fields : List (String × DataType)) :
    ((messageItems number fields).filterMap message?).map MessageOf.name =
      (fields.filter fun field => field.2.single.isDict).map
        fun field => Naming.pretty field.1 := by
  induction fields generalizing number with
  | nil => rfl
  | cons field rest ih =>
      obtain ⟨name, t⟩ := field
      cases hvoid : t.isVoid with
      | true =>
          have hdict : t.single.isDict = false := by
            obtain ⟨kind⟩ := t
            cases kind <;> first | rfl | simp [DataType.isVoid] at hvoid
          simp [messageItems, hvoid, hdict, ih]
      | false =>
          simp only [messageItems, hvoid, Bool.false_eq_true, ↓reduceIte, List.filterMap_append,
            List.map_append, names_fieldItems, ih]
          cases hdict : t.single.isDict <;> simp [hdict]

/-- The messages directly inside of the message for a container have the names that the container
has for those inside of it. -/
theorem Contents.names_nested (c : Contents) :
    c.named.2.nested.map MessageOf.name = c.nestedNames :=
  names_messageItems 0 c.fields

namespace Descriptor

theorem names_messages (s : Service) :
    (ofService s).messages.map MessageOf.name =
      (Contents.tops s).map fun c => c.path.messageName := by
  rw [ofService, Contents.tops, List.map_flatMap, List.map_flatMap]
  rfl

/-- In the descriptor of an accepted service the messages at the top have distinct names exactly
when the operations have distinct pretty names, and the messages directly inside of each message
have distinct names exactly when in each container the fields with dicts have distinct pretty
names. -/
theorem accepted_service_message_names_nodup_iff {services : List Service} {s : Service}
    (haccepted : (Service.checkAll services).isOk = true) (hs : s ∈ services) :
    (((ofService s).messages.map MessageOf.name).Nodup ↔
        (s.operations.map fun o => Naming.pretty o.name).Nodup) ∧
      ((∀ named ∈ (ofService s).allMessages, (named.2.nested.map MessageOf.name).Nodup) ↔
        ∀ c ∈ Contents.ofService s, c.nestedNames.Nodup) := by
  have hwellFormed := (Service.isOk_checkAll_iff services).mp haccepted s hs
  refine ⟨?_, ?_⟩
  · rw [names_messages]
    exact Contents.nodup_map_tops_iff TypePath.messageName_top_inj
  · rw [allMessages_eq hwellFormed, List.forall_mem_map]
    simp only [Contents.names_nested]

end Descriptor

namespace MessageNamesWitness

open LoweringWitness

theorem orders_message_names_nodup :
    (Service.checkAll [orders]).isOk = true ∧ orders ∈ [orders] ∧
      ((Descriptor.ofService orders).messages.map MessageOf.name).Nodup ∧
        ∀ named ∈ (Descriptor.ofService orders).allMessages,
          (named.2.nested.map MessageOf.name).Nodup := by
  have haccepted : (Service.checkAll [orders]).isOk = true := by decide
  have hmem : orders ∈ [orders] := List.mem_singleton.mpr rfl
  obtain ⟨htop, hnested⟩ :=
    Descriptor.accepted_service_message_names_nodup_iff haccepted hmem
  exact ⟨haccepted, hmem, htop.mpr (by decide +kernel), hnested.mpr (by decide +kernel)⟩

/-- An operation with two arguments whose names differ only in how their words are joined. -/
def users : Service where
  name := "Demo"
  declaredAs := ⟨"app.service", "Demo"⟩
  operations := [{
    Operation.named "hello" with
    arguments := [.ofType "user_info" (.dict ⟨[("id", .scalar .int)]⟩),
      .ofType "userInfo" (.dict ⟨[("name", .scalar .string)]⟩)] }]
  implementation := none
  webNamespace := none

/-- An accepted service may have a message with two messages of one name inside of it. -/
theorem not_all_message_names_nodup :
    ¬ ∀ services, (Service.checkAll services).isOk = true → ∀ s ∈ services,
      ((Descriptor.ofService s).messages.map MessageOf.name).Nodup ∧
        ∀ named ∈ (Descriptor.ofService s).allMessages,
          (named.2.nested.map MessageOf.name).Nodup := by
  intro hall
  have husers := hall [users] (by decide) users (List.mem_singleton.mpr rfl)
  revert husers
  decide +kernel

end MessageNamesWitness

end ServiceGen

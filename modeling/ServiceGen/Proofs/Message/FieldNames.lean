import ServiceGen.Proofs.Message.WireClasses

/-!
Which names reach the fields of messages and the parameters of constructors.  All of them are
identifiers, those of arguments apart: nothing checks these.
-/

namespace ServiceGen

namespace Contents

theorem isIdentifier_dataField : Naming.isIdentifier dataField = true := by
  decide

/-- The name that wraps a result is an identifier, and the check sees to the fields of a dict. -/
theorem named_result {o : Operation} (ho : o.WellFormed) (service : String) :
    (result service o).Named := by
  intro field hfield
  simp only [result, Operation.declaredResult] at hfield
  split at hfield
  · rename_i fields hkind
    exact ((DataType.wellFormed_dict_iff hkind).mp ho.result).1 field hfield
  · rw [List.mem_singleton.mp hfield]
    exact isIdentifier_dataField

/-- Below a well-formed container all names are identifiers. -/
theorem named_of_mem_below {c : Contents} (hc : c.WellFormed) :
    ∀ inner ∈ below c.path c.fields, inner.Named :=
  forall_mem_below c.path fun field hfield path inner hinner =>
    (wellFormed_of_mem_ofType (hc field hfield) path inner hinner).2

/-- The fields that an accepted service sends have identifiers for names exactly when its
arguments do, void ones apart. -/
theorem forall_sent_isIdentifier_iff {s : Service} (hs : s.WellFormed) :
    (∀ c ∈ ofService s, ∀ field ∈ c.sent, Naming.isIdentifier field.1 = true) ↔
      ∀ o ∈ s.operations, ∀ a ∈ o.arguments, a.type.isVoid = false →
        Naming.isIdentifier a.name = true := by
  constructor
  · intro hall o ho a ha hvoid
    have hmem : argument s.name o ∈ ofService s :=
      List.mem_flatMap.mpr ⟨o, ho, List.mem_append_left _ List.mem_cons_self⟩
    have hfield : (a.name, a.field) ∈ (argument s.name o).sent :=
      List.mem_filter.mpr ⟨List.mem_map.mpr ⟨a, ha, rfl⟩, by simpa using hvoid⟩
    exact hall _ hmem _ hfield
  · intro harguments c hc field hfield
    obtain ⟨o, ho, hc⟩ := List.mem_flatMap.mp hc
    obtain ⟨hdeclared, hvoid⟩ := List.mem_filter.mp hfield
    rw [List.mem_append, withBelow, withBelow, List.mem_cons, List.mem_cons] at hc
    -- only the first of the four kinds of containers has names that nothing has looked at
    rcases hc with (rfl | hc) | (rfl | hc)
    · obtain ⟨a, ha, rfl⟩ := List.mem_map.mp hdeclared
      exact harguments o ho a ha (by simpa using hvoid)
    · exact named_of_mem_below (Operation.wellFormed_argument (hs o ho) s.name) c hc field hdeclared
    · exact named_result (hs o ho) s.name field hdeclared
    · exact named_of_mem_below (Operation.wellFormed_result (hs o ho) s.name) c hc field hdeclared

end Contents

/-- The fields of a message have the names of the fields that its container sends. -/
theorem Lowers.names_eq {named : String × Message} {c : Contents} (h : Lowers named c) :
    named.2.fields.map MessageField.name = c.sent.map (·.1) :=
  map_eq_map_of_forall₂ h.holds.fields fun _ _ hcarries => hcarries.name_eq

/-- A condition on the names of fields holds in all messages exactly when it holds in all
containers. -/
theorem forall_fieldName_iff {P : String → Prop} {messages : List (String × Message)}
    {containers : List Contents} (h : List.Forall₂ Lowers messages containers) :
    (∀ named ∈ messages, ∀ f ∈ named.2.fields, P f.name) ↔
      ∀ c ∈ containers, ∀ field ∈ c.sent, P field.1 := by
  induction h with
  | nil => simp
  | @cons named c _ _ hlowers _ ih =>
      have hnames : (∀ f ∈ named.2.fields, P f.name) ↔ ∀ field ∈ c.sent, P field.1 := by
        rw [← List.forall_mem_map (f := MessageField.name), hlowers.names_eq, List.forall_mem_map]
      rw [List.forall_mem_cons, List.forall_mem_cons, hnames, ih]

/-- A condition on the names of fields holds in all classes exactly when it holds in all
containers. -/
theorem forall_parameterName_iff {P : String → Prop} {s : Service} (hs : s.WellFormed) :
    (∀ c ∈ DataClass.ofService s, ∀ field ∈ c.fields.entries, P field.1) ↔
      ∀ c ∈ Contents.ofService s, ∀ field ∈ c.sent, P field.1 := by
  have hclasses : (∀ c ∈ DataClass.ofService s, ∀ field ∈ c.fields.entries, P field.1) ↔
      ∀ outline ∈ (DataClass.ofService s).map DataClass.outline,
        ∀ field ∈ outline.2, P field.1 := by
    rw [List.forall_mem_map]
    rfl
  have hcontainers : (∀ c ∈ Contents.ofService s, ∀ field ∈ c.sent, P field.1) ↔
      ∀ outline ∈ (Contents.ofService s).map Contents.outline, ∀ field ∈ outline.2, P field.1 := by
    rw [List.forall_mem_map]
    rfl
  rw [hclasses, hcontainers]
  have hperm := DataClass.outline_ofService_perm hs
  exact ⟨fun h outline houtline => h outline (hperm.mem_iff.mpr houtline),
    fun h outline houtline => h outline (hperm.mem_iff.mp houtline)⟩

/-- In an accepted service the fields of all messages, and the parameters of all constructors, have
identifiers for names exactly when the arguments of its operations do, void ones apart. -/
theorem accepted_service_fieldNames_iff {services : List Service} {s : Service}
    (haccepted : (Service.checkAll services).isOk = true) (hs : s ∈ services) :
    ((∀ named ∈ (Descriptor.ofService s).allMessages, ∀ f ∈ named.2.fields,
        Naming.isIdentifier f.name = true) ↔
      ∀ o ∈ s.operations, ∀ a ∈ o.arguments, a.type.isVoid = false →
        Naming.isIdentifier a.name = true) ∧
    ((∀ c ∈ DataClass.ofService s, ∀ field ∈ c.fields.entries,
        Naming.isIdentifier field.1 = true) ↔
      ∀ o ∈ s.operations, ∀ a ∈ o.arguments, a.type.isVoid = false →
        Naming.isIdentifier a.name = true) := by
  have hwellFormed := (Service.isOk_checkAll_iff services).mp haccepted s hs
  have hsent := Contents.forall_sent_isIdentifier_iff hwellFormed
  constructor
  · exact (forall_fieldName_iff (P := fun name => Naming.isIdentifier name = true)
      (Descriptor.forall₂_allMessages hwellFormed)).trans hsent
  · exact (forall_parameterName_iff (P := fun name => Naming.isIdentifier name = true)
      hwellFormed).trans hsent

namespace FieldNamesWitness

open LoweringWitness

theorem orders_fieldNames_iff :
    (Service.checkAll [orders]).isOk = true ∧ orders ∈ [orders] ∧
      (∀ o ∈ orders.operations, ∀ a ∈ o.arguments, a.type.isVoid = false →
        Naming.isIdentifier a.name = true) ∧
      ∀ named ∈ (Descriptor.ofService orders).allMessages, ∀ f ∈ named.2.fields,
        Naming.isIdentifier f.name = true := by
  have harguments : ∀ o ∈ orders.operations, ∀ a ∈ o.arguments, a.type.isVoid = false →
      Naming.isIdentifier a.name = true := by decide
  exact ⟨by decide, List.mem_singleton.mpr rfl, harguments,
    (accepted_service_fieldNames_iff (by decide : (Service.checkAll [orders]).isOk = true)
      (List.mem_singleton.mpr rfl)).1.mpr harguments⟩

/-- An operation that takes a token from a header. -/
def tokens : Service where
  name := "Demo"
  declaredAs := ⟨"app.service", "Demo"⟩
  operations := [{
    Operation.named "hello" with
    arguments := [.ofType "X-Token" (.scalar .string)] }]
  implementation := none
  webNamespace := none

/-- An accepted service may have a message with a field whose name is no identifier. -/
theorem not_all_fieldNames_identifiers :
    ¬ ∀ services, (Service.checkAll services).isOk = true → ∀ s ∈ services,
      ∀ named ∈ (Descriptor.ofService s).allMessages, ∀ f ∈ named.2.fields,
        Naming.isIdentifier f.name = true := by
  intro hall
  have htokens := hall [tokens] (by decide) tokens (List.mem_singleton.mpr rfl)
  revert htokens
  decide +kernel

end FieldNamesWitness

end ServiceGen

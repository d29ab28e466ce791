import ServiceGen.Message.DataClass
import ServiceGen.Message.Descriptor
import ServiceGen.Proofs.OrderedMap
import ServiceGen.Proofs.Schema.Acceptance

/-!
The containers of a service at every depth, read off its types alone, and the messages of a
descriptor at every depth, read off its items alone.  Both lists put what is outside before what
is inside of it.
-/

namespace ServiceGen

namespace TypePath

theorem wireName_top (service operation : String) (container : Container) :
    (top service operation container).wireName =
      (top service operation container).messageName := by
  simp [wireName, top]

/-- A container inside of another one is qualified by the name of the outer one. -/
theorem wireName_child (p : TypePath) (field : String) :
    (p.child field).wireName = p.wireName ++ "." ++ Naming.pretty field := by
  have h := String.intercalate_append_of_ne_nil (List.cons_ne_nil p.messageName p.nested)
    (List.cons_ne_nil (Naming.pretty field) []) (s := ".")
  simpa [wireName, child, messageName] using h

theorem localName_child (p : TypePath) (field : String) :
    (p.child field).localName = Naming.pretty field := by
  simp [localName, child]

end TypePath

namespace Operation

/-- The arguments as named types, void ones included. -/
def declaredArguments (o : Operation) : List (String × DataType) :=
  o.arguments.map fun a => (a.name, a.field)

/-- The result as named types: the fields of a dict, or one field that wraps anything else. -/
def declaredResult (o : Operation) : List (String × DataType) :=
  match o.result.kind with
  | .dict fields => fields.entries
  | _ => [(dataField, o.result)]

end Operation

/-- A container with the named types that are declared for it, void ones included. -/
structure Contents where
  path : TypePath
  fields : List (String × DataType)

namespace Contents

/-- The fields that are not void, in the order of their declaration. -/
def sent (c : Contents) : List (String × DataType) :=
  c.fields.filter fun field => !field.2.isVoid

mutual

/-- The containers below named types. -/
def below (path : TypePath) : List (String × DataType) → List Contents
  | [] => []
  | (name, t) :: rest => ofType (path.child name) t ++ below path rest

/-- The containers for the dicts that a type is made of: the type itself or, if it is a list, its
elements. -/
def ofType (path : TypePath) : DataType → List Contents
  | { kind := .dict ⟨fields⟩, .. } => ⟨path, fields⟩ :: below path fields
  | { kind := .list element, .. } => ofType path element
  | _ => []

end

/-- A container followed by those inside of it. -/
def withBelow (c : Contents) : List Contents :=
  c :: below c.path c.fields

def argument (service : String) (o : Operation) : Contents :=
  ⟨.top service o.name .argument, o.declaredArguments⟩

def result (service : String) (o : Operation) : Contents :=
  ⟨.top service o.name .result, o.declaredResult⟩

/-- The containers of a service at every depth. -/
def ofService (s : Service) : List Contents :=
  s.operations.flatMap fun o =>
    (argument s.name o).withBelow ++ (result s.name o).withBelow

/-- The whole containers of a service. -/
def tops (s : Service) : List Contents :=
  s.operations.flatMap fun o => [argument s.name o, result s.name o]

theorem ofService_eq (s : Service) : ofService s = (tops s).flatMap withBelow := by
  rw [ofService, tops, List.flatMap_assoc]
  simp

theorem tops_subset (s : Service) : ∀ c ∈ tops s, c ∈ ofService s := by
  intro c hc
  rw [ofService_eq]
  exact List.mem_flatMap.mpr ⟨c, hc, List.mem_cons_self⟩

end Contents

namespace MessageItem

mutual

/-- The messages that an item is or holds, under their names qualified by `outer`. -/
def messagesIn (outer : String) : MessageItem → List (String × Message)
  | field _ => []
  | message ⟨name, items⟩ =>
      (outer ++ "." ++ name, ⟨name, items⟩) :: messagesInAll (outer ++ "." ++ name) items

def messagesInAll (outer : String) : List MessageItem → List (String × Message)
  | [] => []
  | item :: rest => messagesIn outer item ++ messagesInAll outer rest

end

theorem messagesInAll_append (outer : String) (before after : List MessageItem) :
    messagesInAll outer (before ++ after) =
      messagesInAll outer before ++ messagesInAll outer after := by
  induction before with
  | nil => rfl
  | cons item rest ih => simp [messagesInAll, ih]

end MessageItem

/-- The messages of a descriptor at every depth, under their qualified names. -/
def Descriptor.allMessages (d : Descriptor) : List (String × Message) :=
  d.messages.flatMap fun m => (m.name, m) :: MessageItem.messagesInAll m.name m.items

namespace Contents

theorem ofType_dict (path : TypePath) {t : DataType} {fields : Fields}
    (hkind : t.kind = .dict fields) :
    ofType path t = (⟨path, fields.entries⟩ : Contents).withBelow := by
  cases t
  cases hkind
  rfl

theorem ofType_list (path : TypePath) {t element : DataType} (hkind : t.kind = .list element) :
    ofType path t = ofType path element := by
  cases t
  cases hkind
  rfl

/-- A type that is neither a dict nor a list has no container. -/
theorem ofType_eq_nil (path : TypePath) {t : DataType} (hdict : t.isDict = false)
    (hlist : t.isList = false) : ofType path t = [] := by
  obtain ⟨kind⟩ := t
  cases kind with
  | list element => simp [DataType.isList] at hlist
  | dict fields => simp [DataType.isDict] at hdict
  | _ => rfl

theorem ofType_void (path : TypePath) {t : DataType} (hvoid : t.isVoid = true) :
    ofType path t = [] := by
  obtain ⟨kind⟩ := t
  cases kind <;> first | rfl | simp [DataType.isVoid] at hvoid

/-- A container all of whose types are well formed. -/
def WellFormed (c : Contents) : Prop :=
  ∀ field ∈ c.fields, field.2.WellFormed

/-- The names of the fields of a container are identifiers. -/
def Named (c : Contents) : Prop :=
  ∀ field ∈ c.fields, Naming.isIdentifier field.1 = true

theorem below_eq_flatMap (path : TypePath) (fields : List (String × DataType)) :
    below path fields = fields.flatMap fun field => ofType (path.child field.1) field.2 := by
  induction fields with
  | nil => rfl
  | cons field rest ih => rw [below, ih, List.flatMap_cons]

/-- What holds of the containers of each type among some holds of the containers below them. -/
theorem forall_mem_below {P : Contents → Prop} (path : TypePath)
    {fields : List (String × DataType)}
    (htypes : ∀ field ∈ fields, ∀ path, ∀ c ∈ ofType path field.2, P c) :
    ∀ c ∈ below path fields, P c := by
  intro c hc
  rw [below_eq_flatMap] at hc
  obtain ⟨field, hfield, hc⟩ := List.mem_flatMap.mp hc
  exact htypes field hfield _ c hc

/-- Below a well-formed type all containers are well formed and have identifiers for names. -/
theorem wellFormed_of_mem_ofType {t : DataType} (h : t.WellFormed) :
    ∀ path, ∀ c ∈ ofType path t, c.WellFormed ∧ c.Named := by
  induction h with
  | void hkind => simp [ofType_eq_nil, DataType.isDict, DataType.isList, hkind]
  | scalar hkind => simp [ofType_eq_nil, DataType.isDict, DataType.isList, hkind]
  | enum hkind => simp [ofType_eq_nil, DataType.isDict, DataType.isList, hkind]
  | list hkind _ _ _ ih =>
      intro path c hc
      rw [ofType_list path hkind] at hc
      exact ih path c hc
  | dict hkind hnames htypes ih =>
      intro path c hc
      rw [ofType_dict path hkind, withBelow, List.mem_cons] at hc
      rcases hc with rfl | hc
      · exact ⟨htypes, hnames⟩
      · exact forall_mem_below path ih c hc

end Contents

namespace Operation

theorem keys_declaredArguments (o : Operation) :
    o.declaredArguments.map (·.1) = o.arguments.map Argument.name := by
  simp [declaredArguments, Function.comp_def]

/-- The notes of an argument do not make it void. -/
@[simp] theorem isVoid_field (a : Argument) : a.field.isVoid = a.type.isVoid := rfl

/-- The arguments of a well-formed operation are sent as they are declared, but for the void
ones. -/
theorem entries_sentArguments {o : Operation} (ho : o.WellFormed) :
    o.sentArguments.entries = o.declaredArguments.filter fun field => !field.2.isVoid := by
  have hfilter : (o.arguments.filter (!·.type.isVoid)).map (fun a => (a.name, a.field)) =
      o.declaredArguments.filter fun field => !field.2.isVoid := by
    rw [declaredArguments, List.filter_map]
    rfl
  have hnodup : ((o.declaredArguments.filter fun field => !field.2.isVoid).map (·.1)).Nodup := by
    apply List.Nodup.sublist (List.filter_sublist.map _)
    rw [keys_declaredArguments]
    exact ho.names_nodup
  rw [sentArguments, hfilter, OrderedMap.entries_ofList hnodup]

theorem entries_sentResult (o : Operation) :
    o.sentResult.entries = o.declaredResult.filter fun field => !field.2.isVoid := by
  cases hkind : o.result.kind <;>
    simp [sentResult, declaredResult, OrderedMap.sent, OrderedMap.filter, OrderedMap.empty,
      DataType.isVoid, hkind]

theorem wellFormed_argument {o : Operation} (ho : o.WellFormed) (service : String) :
    (Contents.argument service o).WellFormed := by
  intro field hfield
  obtain ⟨a, ha, rfl⟩ := List.mem_map.mp hfield
  have hkind : a.field.kind = a.type.kind := rfl
  exact (ho.arguments a ha).of_kind_eq hkind

theorem wellFormed_result {o : Operation} (ho : o.WellFormed) (service : String) :
    (Contents.result service o).WellFormed := by
  intro field hfield
  simp only [Contents.result, declaredResult] at hfield
  split at hfield
  · rename_i fields hkind
    exact ((DataType.wellFormed_dict_iff hkind).mp ho.result).2 field hfield
  · rw [List.mem_singleton.mp hfield]
    exact ho.result

end Operation

/-- All containers of a well-formed service are well formed. -/
theorem Contents.wellFormed_of_mem_ofService {s : Service} (hs : s.WellFormed) :
    ∀ c ∈ ofService s, c.WellFormed := by
  have hwithBelow : ∀ outer : Contents, outer.WellFormed → ∀ c ∈ outer.withBelow, c.WellFormed := by
    intro outer houter c hc
    rcases List.mem_cons.mp hc with rfl | hc
    · exact houter
    · exact forall_mem_below outer.path
        (fun field hfield path c hc => (wellFormed_of_mem_ofType (houter field hfield) path c hc).1)
        c hc
  intro c hc
  obtain ⟨o, ho, hc⟩ := List.mem_flatMap.mp hc
  rcases List.mem_append.mp hc with hc | hc
  · exact hwithBelow _ (Operation.wellFormed_argument (hs o ho) s.name) c hc
  · exact hwithBelow _ (Operation.wellFormed_result (hs o ho) s.name) c hc

end ServiceGen

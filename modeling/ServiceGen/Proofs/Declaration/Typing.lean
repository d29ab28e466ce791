import ServiceGen.Proofs.Declaration.Counted
import ServiceGen.Proofs.Schema.Violations

/-!
What is lost between hints and types.  Every void in the type of a hint stands for one fallback that
was counted, and every list field whose element has no meaning for one dropped list, wherever they
stand in the hint; the main statement is `TypeHint.adapted_losses_counted`.
-/

namespace ServiceGen

namespace DataType

/-- The number of voids in a type, through the elements of lists and the fields of dicts. -/
def voids (t : DataType) : Nat :=
  t.nodes.countP (·.2.isVoid)

/-- No type among some is an enumeration or a list of voids. -/
def Meaningful (nodes : List (List String × DataType)) : Prop :=
  ∀ node ∈ nodes, node.2.isEnum = false ∧
    ∀ element, node.2.kind = .list element → element.isVoid = false

theorem isVoid_eq_of_kind {t u : DataType} (hkind : u.kind = t.kind) : u.isVoid = t.isVoid := by
  rw [isVoid, isVoid, hkind]

theorem nodes_list {t element : DataType} (hkind : t.kind = .list element) :
    t.nodes = ([], t) :: element.nodes.map fun node => ("elem" :: node.1, node.2) := by
  obtain ⟨kind⟩ := t
  obtain rfl : kind = .list element := hkind
  rfl

theorem nodes_dict {t : DataType} {fields : List (String × DataType)}
    (hkind : t.kind = .dict ⟨fields⟩) : t.nodes = ([], t) :: nodesOf fields := by
  obtain ⟨kind⟩ := t
  obtain rfl : kind = .dict ⟨fields⟩ := hkind
  rfl

theorem nodes_scalar {t : DataType} {s : Scalar} (hkind : t.kind = .scalar s) :
    t.nodes = [([], t)] := by
  obtain ⟨kind⟩ := t
  obtain rfl : kind = .scalar s := hkind
  rfl

theorem countP_under (name : String) (nodes : List (List String × DataType)) :
    (nodes.map fun node => (name :: node.1, node.2)).countP (·.2.isVoid) =
      nodes.countP (·.2.isVoid) := by
  rw [List.countP_map]
  rfl

theorem meaningful_under {name : String} {nodes : List (List String × DataType)} :
    Meaningful (nodes.map fun node => (name :: node.1, node.2)) ↔ Meaningful nodes := by
  rw [Meaningful, List.forall_mem_map]
  exact Iff.rfl

/-- Types of one kind differ as nodes at the top only. -/
theorem nodes_eq_of_kind {t u : DataType} (hkind : u.kind = t.kind) :
    ∃ below, t.nodes = ([], t) :: below ∧ u.nodes = ([], u) :: below := by
  obtain ⟨kind⟩ := t
  obtain ⟨kind'⟩ := u
  obtain rfl : kind' = kind := hkind
  cases kind' <;> exact ⟨_, rfl, rfl⟩

end DataType

/-- Filling in a note keeps the kind of a type. -/
theorem NoteSlot.kind_fill (slot : NoteSlot) (value : Json) (t : DataType) :
    (slot.fill value t).kind = t.kind := by
  cases slot <;> rfl

theorem NoteSet.kind_apply (set : NoteSet) (attributes : Option Attributes) (t : DataType) :
    (set.apply attributes t).kind = t.kind := by
  rw [apply]
  refine List.foldlRecOn set.slots _ (motive := fun u : DataType => u.kind = t.kind) rfl
    fun u hu slot _ => ?_
  split
  · exact (slot.kind_fill _ u).trans hu
  · exact hu

namespace TypeHint

open DataType

mutual

/-- The containers of the list fields of a hint: its own, if it is one, and those of the list fields
that are reached through containers of lists and models of nested fields. -/
def listContainers : TypeHint → List (Option TypeHint)
  | literal _ | native _ | other _ => []
  | field f => fieldListContainers f

/-- The containers of a field object and of the list fields inside of it. -/
def fieldListContainers : WebFieldOf TypeHint → List (Option TypeHint)
  | ⟨name, container, model, _⟩ =>
      match FieldKind.ofName name with
      | .list => container :: listContainers? container
      | .nested => modelListContainers model
      | _ => []

/-- The containers of the list fields inside of the container of a list. -/
def listContainers? : Option TypeHint → List (Option TypeHint)
  | none => []
  | some hint => listContainers hint

/-- The containers of the list fields inside of a model. -/
def modelListContainers : Option (OrderedMap TypeHint) → List (Option TypeHint)
  | none => []
  | some ⟨entries⟩ => entriesListContainers entries

/-- The containers of the list fields of named hints. -/
def entriesListContainers : List (String × TypeHint) → List (Option TypeHint)
  | [] => []
  | (_, hint) :: rest => listContainers hint ++ entriesListContainers rest

end

/-- The container of a list has no meaning, so the list is dropped. -/
def dropsList (container : Option TypeHint) : Bool :=
  (adapt? none container).1.isVoid

/-- The losses are those that the type shows, with some dropped lists besides. -/
structure Accounts (r : DataType × Degradations) (containers : List (Option TypeHint)) : Prop where
  fallbacks : r.2.voidFallbacks = r.1.voids
  elements : r.2.voidElements = containers.countP dropsList
  meaningful : Meaningful r.1.nodes
  void : r.1.isVoid = true → r.1 = .void

/-- The same for the types of named hints. -/
structure AccountsFields (r : List (String × DataType) × Degradations)
    (containers : List (Option TypeHint)) : Prop where
  fallbacks : r.2.voidFallbacks = (nodesOf r.1).countP (·.2.isVoid)
  elements : r.2.voidElements = containers.countP dropsList
  meaningful : Meaningful (nodesOf r.1)

theorem accounts_fallback : Accounts fallback [] where
  fallbacks := rfl
  elements := rfl
  meaningful := by simp [Meaningful, fallback, DataType.void, ofKind, nodes, isEnum]
  void := fun _ => rfl

theorem accounts_scalar {t : DataType} {s : Scalar} (hkind : t.kind = .scalar s) :
    Accounts (t, .none) [] where
  fallbacks := by
    rw [voids, nodes_scalar hkind]
    simp [isVoid, hkind, Degradations.none]
  elements := rfl
  meaningful := by
    rw [nodes_scalar hkind]
    simp [Meaningful, isEnum, hkind]
  void := by simp [isVoid, hkind]

theorem accounts_list {t : DataType} {r : DataType × Degradations} {container : Option TypeHint}
    {containers : List (Option TypeHint)} (hkind : t.kind = .list r.1)
    (h : Accounts r containers) (helement : r.1.isVoid = false)
    (hcontainer : dropsList container = false) : Accounts (t, r.2) (container :: containers) where
  fallbacks := by
    rw [h.fallbacks, voids, voids, nodes_list hkind, List.countP_cons, countP_under]
    simp [isVoid, hkind]
  elements := by simp [h.elements, hcontainer]
  meaningful := by
    rw [nodes_list hkind, Meaningful, List.forall_mem_cons]
    refine ⟨⟨by simp [isEnum, hkind], fun element heq => ?_⟩, meaningful_under.mpr h.meaningful⟩
    obtain rfl := Kind.list.inj (hkind.symm.trans heq)
    exact helement
  void := by simp [isVoid, hkind]

/-- A list whose element is void becomes void itself, and that is counted. -/
theorem accounts_dropped {r : DataType × Degradations} {container : Option TypeHint}
    {containers : List (Option TypeHint)} (h : Accounts r containers)
    (helement : r.1.isVoid = true) (hcontainer : dropsList container = true) :
    Accounts (.void, r.2 + ⟨0, 1⟩) (container :: containers) where
  fallbacks := by
    have hvoid := h.fallbacks
    rw [h.void helement] at hvoid
    simpa using hvoid
  elements := by simp [h.elements, hcontainer]
  meaningful := accounts_fallback.meaningful
  void := fun _ => rfl

theorem accounts_dict {t : DataType} {r : List (String × DataType) × Degradations}
    {containers : List (Option TypeHint)} (hkind : t.kind = .dict ⟨r.1⟩)
    (h : AccountsFields r containers) : Accounts (t, r.2) containers where
  fallbacks := by
    rw [h.fallbacks, voids, nodes_dict hkind]
    simp [isVoid, hkind]
  elements := h.elements
  meaningful := by
    rw [nodes_dict hkind, Meaningful, List.forall_mem_cons]
    exact ⟨⟨by simp [isEnum, hkind], by simp [hkind]⟩, h.meaningful⟩
  void := by simp [isVoid, hkind]

theorem accountsFields_nil : AccountsFields ([], .none) [] where
  fallbacks := rfl
  elements := rfl
  meaningful := by simp [Meaningful, nodesOf]

theorem accountsFields_cons {name : String} {r : DataType × Degradations}
    {rs : List (String × DataType) × Degradations} {containers others : List (Option TypeHint)}
    (h : Accounts r containers) (hs : AccountsFields rs others) :
    AccountsFields ((name, r.1) :: rs.1, r.2 + rs.2) (containers ++ others) where
  fallbacks := by
    rw [nodesOf, List.countP_append, countP_under, Degradations.voidFallbacks_add, h.fallbacks,
      hs.fallbacks, voids]
  elements := by simp [h.elements, hs.elements]
  meaningful := by
    rw [nodesOf, Meaningful, List.forall_mem_append]
    exact ⟨meaningful_under.mpr h.meaningful, hs.meaningful⟩

/-- The notes of a type have nothing to do with what was lost. -/
theorem Accounts.of_kind_eq {t u : DataType} {d : Degradations}
    {containers : List (Option TypeHint)} (h : Accounts (t, d) containers)
    (hkind : u.kind = t.kind) (hvoid : u.isVoid = true → u = .void) :
    Accounts (u, d) containers := by
  obtain ⟨below, ht, hu⟩ := nodes_eq_of_kind hkind
  have hmeaningful := h.meaningful
  rw [ht, Meaningful, List.forall_mem_cons] at hmeaningful
  refine ⟨?_, h.elements, ?_, hvoid⟩
  · rw [h.fallbacks, voids, voids, ht, hu, List.countP_cons, List.countP_cons,
      isVoid_eq_of_kind hkind]
  · rw [hu, Meaningful, List.forall_mem_cons]
    exact ⟨by simpa only [isEnum, hkind] using hmeaningful.1, hmeaningful.2⟩

theorem Accounts.override {r : DataType × Degradations} {containers : List (Option TypeHint)}
    (h : Accounts r containers) (attributes : Option Attributes) :
    Accounts (override attributes r.1, r.2) containers := by
  rw [TypeHint.override]
  split
  · split
    · exact h
    · rename_i hvoid
      exact h.of_kind_eq rfl fun hu => absurd hu hvoid
  · exact h

theorem adaptContainer_eq (container : Option TypeHint) :
    adaptContainer container = adapt? none container := by
  cases container with
  | none => rw [adaptContainer, adapt?]
  | some hint => rw [adaptContainer, adapt?]

mutual

theorem accounts_adapt (attributes : Option Attributes) :
    ∀ hint : TypeHint, Accounts (adapt attributes hint) (listContainers hint)
  | literal word => by
      rw [adapt, listContainers]
      exact Accounts.override (accounts_scalar (NoteSet.kind_apply ..)) attributes
  | native type => by
      rw [adapt, listContainers]
      exact Accounts.override (accounts_scalar (NoteSet.kind_apply ..)) attributes
  | field f => by
      rw [adapt, listContainers]
      exact (accounts_adaptField attributes f).override attributes
  | other _ => accounts_fallback

theorem accounts_adaptField (attributes : Option Attributes) :
    ∀ f : WebFieldOf TypeHint, Accounts (adaptField attributes f) (fieldListContainers f)
  | ⟨name, container, model, own⟩ => by
      rw [adaptField, fieldListContainers]
      cases FieldKind.ofName name with
      | integer | float | boolean | string => exact accounts_scalar (NoteSet.kind_apply ..)
      | list =>
          -- The element is typed without attributes, just as `dropsList` looks at it.
          have h := accounts_adaptContainer container
          rw [adaptContainer_eq] at h ⊢
          dsimp only
          split
          · rename_i hvoid
            exact accounts_dropped h hvoid hvoid
          · rename_i hvoid
            exact accounts_list (NoteSet.kind_apply ..) h (Bool.eq_false_iff.mpr hvoid)
              (Bool.eq_false_iff.mpr hvoid)
      | nested => exact accounts_dict rfl (accounts_adaptModel model)
      | other => exact accounts_fallback

theorem accounts_adaptContainer :
    ∀ container : Option TypeHint,
      Accounts (adaptContainer container) (listContainers? container)
  | none => accounts_fallback
  | some hint => by
      rw [adaptContainer, listContainers?]
      exact accounts_adapt none hint

theorem accounts_adaptModel :
    ∀ model : Option (OrderedMap TypeHint),
      AccountsFields (adaptModel model) (modelListContainers model)
  | none => accountsFields_nil
  | some ⟨entries⟩ => by
      rw [adaptModel, modelListContainers]
      exact accounts_adaptEntries entries

theorem accounts_adaptEntries :
    ∀ entries : List (String × TypeHint),
      AccountsFields (adaptEntries entries) (entriesListContainers entries)
  | [] => accountsFields_nil
  | (name, hint) :: rest => by
      rw [adaptEntries, entriesListContainers]
      exact accountsFields_cons (accounts_adapt hint.attributes? hint) (accounts_adaptEntries rest)

end

theorem accounts_adapt? (attributes : Option Attributes) (hint : Option TypeHint) :
    Accounts (adapt? attributes hint) (listContainers? hint) := by
  cases hint with
  | none => exact accounts_fallback
  | some hint =>
      rw [adapt?, listContainers?]
      exact accounts_adapt attributes hint

theorem kind_override (attributes : Option Attributes) (t : DataType) :
    (override attributes t).kind = t.kind := by
  rw [override]
  split
  · split <;> rfl
  · rfl

/-- The attribute about whether a type is required wins, and void is never required. -/
theorem required_override {attributes : Option Attributes} {required : Json}
    (h : attributes.bind (·.present? "required") = some required) {t : DataType}
    (hvoid : t.isVoid = true → t = .void) :
    (override attributes t).required =
      (!(override attributes t).isVoid && required.truthy) := by
  rw [isVoid_eq_of_kind (kind_override attributes t), override, h]
  dsimp only
  cases ht : t.isVoid with
  | true => rw [hvoid ht]; rfl
  | false => rfl

theorem required_adapt? {attributes : Option Attributes} {required : Json}
    (h : attributes.bind (·.present? "required") = some required) (hint : Option TypeHint) :
    (adapt? attributes hint).1.required =
      (!(adapt? attributes hint).1.isVoid && required.truthy) := by
  cases hint with
  | none => rfl
  | some hint =>
      rw [adapt?]
      cases hint with
      | literal word =>
          rw [adapt]
          exact required_override h (accounts_scalar (NoteSet.kind_apply ..)).void
      | native type =>
          rw [adapt]
          exact required_override h (accounts_scalar (NoteSet.kind_apply ..)).void
      | field f =>
          rw [adapt]
          exact required_override h (accounts_adaptField attributes f).void
      | other value => rfl

/-- Whatever a hint is and whatever was counted before: its type has no list of voids at any depth;
as many fallbacks are counted as there are voids in the type, and as many dropped lists as there are
list fields in the hint whose element becomes void; and an attribute about whether the type is
required is followed, unless the type is void, which never is. -/
theorem adapted_losses_counted (attributes : Option Attributes) (hint : Option TypeHint)
    (d : Degradations) :
    ∃ t : DataType,
      Counted.record (adapt? attributes hint) d =
        .ok (t, ⟨d.voidFallbacks + t.voids,
          d.voidElements + (listContainers? hint).countP dropsList⟩) ∧
      Meaningful t.nodes ∧
      ∀ required, attributes.bind (·.present? "required") = some required →
        t.required = (!t.isVoid && required.truthy) := by
  have h := accounts_adapt? attributes hint
  refine ⟨(adapt? attributes hint).1, ?_, h.meaningful, fun required hrequired =>
    required_adapt? hrequired hint⟩
  rw [← h.fallbacks, ← h.elements]
  rfl

end TypeHint

namespace TypingWitness

open TypeHint

def list (container : TypeHint) : TypeHint :=
  .field ⟨"List", some container, none, ⟨[]⟩⟩

/-- A nested field with a number, a value that no rule understands, and a list of lists of such
values. -/
def order : TypeHint :=
  .field ⟨"Nested", none, some ⟨[("count", .literal "int"), ("placed", .other .null),
    ("tags", list (list (.other .null)))]⟩, ⟨[]⟩⟩

def optional : Attributes :=
  ⟨[("required", .num (.int 0))]⟩

/-- Two voids are left of the order, and two lists were dropped. -/
theorem order_losses_counted :
    (some optional).bind (·.present? "required") = some (.num (.int 0)) ∧
      ∃ t : DataType, Counted.record (adapt? (some optional) (some order)) ⟨5, 7⟩ =
        .ok (t, ⟨7, 9⟩) ∧ t.voids = 2 ∧ DataType.Meaningful t.nodes ∧ t.required = false := by
  have hrequired : (some optional).bind (·.present? "required") = some (.num (.int 0)) := rfl
  obtain ⟨t, hrecord, hmeaningful, hfollowed⟩ :=
    adapted_losses_counted (some optional) (some order) ⟨5, 7⟩
  have htype : (adapt? (some optional) (some order)).1 = t :=
    congrArg Prod.fst (Except.ok.inj hrecord)
  have hvoids : t.voids = 2 := by
    rw [← htype]
    decide
  have hdropped : (listContainers? (some order)).countP dropsList = 2 := by decide
  rw [hvoids, hdropped] at hrecord
  refine ⟨hrequired, t, hrecord, hvoids, hmeaningful, ?_⟩
  rw [hfollowed _ hrequired]
  exact Bool.and_false _

end TypingWitness

end ServiceGen

import Mathlib.Data.List.Nodup
import ServiceGen.Proofs.Message.MessageNames
import ServiceGen.Proofs.Message.WireClasses
import ServiceGen.Proofs.Text.Search

/-!
When the containers of a service have distinct class names.  Where operations, and the fields with
dicts of each container, have distinct pretty names, all paths are distinct.  A class name runs the
names of a path together, and it tells paths apart if no name can be taken for another one with
further words behind it.  Both are cases of one statement about ways to write paths as sequences
(`PathCode`).
-/

namespace ServiceGen

/-- A way to write paths as sequences of symbols: what stands for the whole container comes first,
then what stands for each name on the way down.  Names that follow begin with the symbols
`opens`. -/
structure PathCode (γ : Type) where
  top : TypePath → List γ
  name : String → List γ
  opens : γ → Prop
  top_child : ∀ (p : TypePath) (field : String), top (p.child field) = top p

namespace PathCode

variable {γ : Type} (code : PathCode γ)

/-- The sequence for a path. -/
def write (p : TypePath) : List γ :=
  code.top p ++ p.nested.flatMap code.name

theorem write_child (p : TypePath) (field : String) :
    code.write (p.child field) = code.write p ++ code.name (Naming.pretty field) := by
  rw [write, write, top_child, TypePath.child, List.flatMap_append, List.append_assoc]
  simp

/-- A sequence that can follow: it is empty or begins as names do. -/
def Follows (symbols : List γ) : Prop :=
  ∀ x ∈ symbols.head?, code.opens x

theorem follows_nil : code.Follows [] := by
  simp [Follows]

theorem Follows.append {code : PathCode γ} {symbols : List γ} (h : code.Follows symbols)
    (hne : symbols ≠ []) (more : List γ) : code.Follows (symbols ++ more) := by
  cases symbols with
  | nil => exact absurd rfl hne
  | cons x rest => exact h

/-- Two sequences stay different whatever follows them. -/
def Apart (a b : List γ) : Prop :=
  ∀ u v, code.Follows u → code.Follows v → a ++ u ≠ b ++ v

/-- Names whose sequences can follow, and can be told apart. -/
structure Separates (names : List String) : Prop where
  ne_nil : ∀ name ∈ names, code.name name ≠ []
  follows : ∀ name ∈ names, code.Follows (code.name name)
  apart : names.Pairwise fun a b => code.Apart (code.name a) (code.name b)

/-- Containers at or below a path: they are written differently, and each as the path with something
behind it. -/
structure Spreads (p : TypePath) (containers : List Contents) : Prop where
  nodup : (containers.map fun c => code.write c.path).Nodup
  extends_path : ∀ c ∈ containers, ∃ u, code.Follows u ∧ code.write c.path = code.write p ++ u

end PathCode

namespace Contents

/-- Only dicts and lists of dicts have containers. -/
theorem isDict_single_of_mem_ofType {t : DataType} (h : t.WellFormed) {path : TypePath}
    {c : Contents} (hc : c ∈ ofType path t) : t.single.isDict = true := by
  cases hkind : t.kind with
  | dict fields => simp [DataType.single, DataType.element?, DataType.isDict, hkind]
  | list element =>
      obtain ⟨-, hlist, -⟩ := (DataType.wellFormed_list_iff hkind).mp h
      rw [ofType_list path hkind] at hc
      have hdict : element.isDict = true := by
        by_contra hdict
        rw [ofType_eq_nil path (eq_false_of_ne_true hdict) hlist] at hc
        cases hc
      simpa [DataType.single, DataType.element?, hkind] using hdict
  | _ =>
      rw [ofType_eq_nil path (by simp [DataType.isDict, hkind])
        (by simp [DataType.isList, hkind])] at hc
      cases hc

end Contents

namespace PathCode

open Contents

variable {γ : Type} {code : PathCode γ}

/-- The containers below a container are written differently, and each as the path of the container
with a name and maybe more behind it. -/
theorem below_spreads {c : Contents} (hc : c.WellFormed) (hnames : code.Separates c.nestedNames)
    (hfields : ∀ field ∈ c.fields,
      code.Spreads (c.path.child field.1) (ofType (c.path.child field.1) field.2)) :
    ((below c.path c.fields).map fun inner => code.write inner.path).Nodup ∧
      ∀ inner ∈ below c.path c.fields, ∃ name ∈ c.nestedNames, ∃ u, code.Follows u ∧
        code.write inner.path = code.write c.path ++ (code.name name ++ u) := by
  have hname : ∀ field ∈ c.fields, ∀ inner ∈ ofType (c.path.child field.1) field.2,
      field.2.single.isDict = true ∧ ∃ u, code.Follows u ∧ code.write inner.path =
        code.write c.path ++ (code.name (Naming.pretty field.1) ++ u) := by
    intro field hfield inner hinner
    obtain ⟨u, hu, hwrite⟩ := (hfields field hfield).extends_path inner hinner
    rw [write_child, List.append_assoc] at hwrite
    exact ⟨isDict_single_of_mem_ofType (hc field hfield) hinner, u, hu, hwrite⟩
  have hapart := hnames.apart
  rw [nestedNames, List.pairwise_map, List.pairwise_filter] at hapart
  rw [below_eq_flatMap]
  refine ⟨?_, ?_⟩
  · rw [List.map_flatMap, List.nodup_iff_pairwise_ne, List.pairwise_flatMap]
    refine ⟨fun field hfield => (hfields field hfield).nodup, ?_⟩
    refine hapart.imp_of_mem fun {a b} ha hb hab x hx y hy heq => ?_
    obtain ⟨inner, hinner, rfl⟩ := List.mem_map.mp hx
    obtain ⟨other, hother, rfl⟩ := List.mem_map.mp hy
    obtain ⟨hadict, u, hu, hinnerWrite⟩ := hname a ha inner hinner
    obtain ⟨hbdict, v, hv, hotherWrite⟩ := hname b hb other hother
    rw [hinnerWrite, hotherWrite, List.append_right_inj] at heq
    exact hab hadict hbdict u v hu hv heq
  · intro inner hinner
    obtain ⟨field, hfield, hinner⟩ := List.mem_flatMap.mp hinner
    obtain ⟨hdict, u, hu, hwrite⟩ := hname field hfield inner hinner
    refine ⟨Naming.pretty field.1, ?_, u, hu, hwrite⟩
    exact List.mem_map.mpr ⟨field, List.mem_filter.mpr ⟨hfield, hdict⟩, rfl⟩

/-- A container is written differently from those inside of it, because names are not empty. -/
theorem withBelow_spreads {c : Contents} (hc : c.WellFormed)
    (hnames : code.Separates c.nestedNames)
    (hfields : ∀ field ∈ c.fields,
      code.Spreads (c.path.child field.1) (ofType (c.path.child field.1) field.2)) :
    code.Spreads c.path c.withBelow := by
  obtain ⟨hnodup, hbelow⟩ := below_spreads hc hnames hfields
  refine ⟨?_, ?_⟩
  · rw [withBelow, List.map_cons, List.nodup_cons]
    refine ⟨fun hmem => ?_, hnodup⟩
    obtain ⟨inner, hinner, heq⟩ := List.mem_map.mp hmem
    obtain ⟨name, hname, u, -, hwrite⟩ := hbelow inner hinner
    rw [hwrite, List.append_right_eq_self, List.append_eq_nil_iff] at heq
    exact hnames.ne_nil name hname heq.1
  · intro inner hinner
    rcases List.mem_cons.mp hinner with rfl | hinner
    · exact ⟨[], code.follows_nil, (List.append_nil _).symm⟩
    · obtain ⟨name, hname, u, -, hwrite⟩ := hbelow inner hinner
      exact ⟨_, (hnames.follows name hname).append (hnames.ne_nil name hname) u, hwrite⟩

theorem ofType_spreads {t : DataType} (h : t.WellFormed) :
    ∀ path, (∀ c ∈ ofType path t, code.Separates c.nestedNames) →
      code.Spreads path (ofType path t) := by
  -- the elements of a list have the path of the list, the fields of a dict have paths below it
  induction h with
  | @list t element hkind _ _ _ ih =>
      intro path hnames
      rw [ofType_list path hkind] at hnames ⊢
      exact ih path hnames
  | @dict t fields hkind _ htypes ih =>
      intro path hnames
      have hwellFormed : (⟨path, fields.entries⟩ : Contents).WellFormed := htypes
      rw [ofType_dict path hkind] at hnames ⊢
      rw [withBelow, List.forall_mem_cons, below_eq_flatMap] at hnames
      refine withBelow_spreads hwellFormed hnames.1 fun field hfield => ih field hfield _ ?_
      exact fun c hc => hnames.2 c (List.mem_flatMap.mpr ⟨field, hfield, hc⟩)
  | _ hkind =>
      intro path _
      rw [ofType_eq_nil path (by simp [DataType.isDict, hkind])
        (by simp [DataType.isList, hkind])]
      exact ⟨List.nodup_nil, by simp⟩

/-- All containers of a service are written differently if the names in each of them can be told
apart and the whole containers can. -/
theorem nodup_write_ofService {s : Service} (hs : s.WellFormed)
    (hnames : ∀ c ∈ ofService s, code.Separates c.nestedNames)
    (htops : (tops s).Pairwise fun c d => code.Apart (code.write c.path) (code.write d.path)) :
    ((ofService s).map fun c => code.write c.path).Nodup := by
  have hspreads : ∀ c ∈ tops s, code.Spreads c.path c.withBelow := by
    intro c hc
    have hmem := tops_subset s c hc
    have hbelow : ∀ inner ∈ below c.path c.fields, code.Separates inner.nestedNames := by
      intro inner hinner
      refine hnames inner ?_
      rw [ofService_eq]
      exact List.mem_flatMap.mpr ⟨c, hc, List.mem_cons_of_mem c hinner⟩
    rw [below_eq_flatMap] at hbelow
    have hwellFormed := wellFormed_of_mem_ofService hs c hmem
    refine withBelow_spreads hwellFormed (hnames c hmem) fun field hfield =>
      ofType_spreads (hwellFormed field hfield) _ ?_
    exact fun inner hinner => hbelow inner (List.mem_flatMap.mpr ⟨field, hfield, hinner⟩)
  rw [ofService_eq, List.map_flatMap, List.nodup_iff_pairwise_ne, List.pairwise_flatMap]
  refine ⟨fun c hc => (hspreads c hc).nodup, ?_⟩
  refine htops.imp_of_mem fun {c d} hc hd hapart x hx y hy heq => ?_
  obtain ⟨inner, hinner, rfl⟩ := List.mem_map.mp hx
  obtain ⟨other, hother, rfl⟩ := List.mem_map.mp hy
  obtain ⟨u, hu, hinnerWrite⟩ := (hspreads c hc).extends_path inner hinner
  obtain ⟨v, hv, hotherWrite⟩ := (hspreads d hd).extends_path other hother
  rw [hinnerWrite, hotherWrite] at heq
  exact hapart u v hu hv heq

end PathCode

namespace Naming

/-- The name begins with a capital letter of ASCII. -/
def Capitalised (name : String) : Prop :=
  name.toList.head?.any Char.isUpper = true

instance (name : String) : Decidable (Capitalised name) :=
  inferInstanceAs (Decidable (_ = true))

theorem Capitalised.eq_cons {name : String} (h : Capitalised name) :
    ∃ c rest, name.toList = c :: rest ∧ c.isUpper = true := by
  rw [Capitalised] at h
  cases hname : name.toList with
  | nil => simp [hname] at h
  | cons c rest => exact ⟨c, rest, rfl, by simpa [hname] using h⟩

/-- The second name is the first one with further words behind it. -/
def Continues (a b : String) : Prop :=
  ∃ more, Capitalised more ∧ b = a ++ more

theorem continues_iff (a b : String) :
    Continues a b ↔ ∃ rest ∈ Text.strip? a.toList b.toList, rest.head?.any Char.isUpper = true := by
  simp only [Option.mem_def, Text.strip?_eq_some_iff]
  constructor
  · rintro ⟨more, hmore, rfl⟩
    exact ⟨more.toList, String.toList_append, hmore⟩
  · rintro ⟨rest, hb, hrest⟩
    refine ⟨String.ofList rest, ?_, String.toList_injective ?_⟩
    · rwa [Capitalised, String.toList_ofList]
    · rw [hb, String.toList_append, String.toList_ofList]

instance (a b : String) : Decidable (Continues a b) :=
  decidable_of_iff _ (continues_iff a b).symm

end Naming

namespace PathCode

/-- Paths as sequences of names. -/
def address : PathCode String where
  top p := [p.messageName]
  name name := [name]
  opens _ := True
  top_child _ _ := rfl

theorem separates_address {names : List String} (hnodup : names.Nodup) :
    address.Separates names where
  ne_nil := by simp [address]
  follows := by simp [Follows, address]
  apart := (List.nodup_iff_pairwise_ne.mp hnodup).imp fun hne _ _ _ _ heq =>
    hne (List.cons.inj heq).1

/-- Paths as the characters of class names: names follow one another without anything between them,
and only their capitals show where they begin. -/
def className : PathCode Char where
  top p := (p.operation ++ p.container.word).toList
  name := String.toList
  opens c := c.isUpper = true
  top_child _ _ := rfl

theorem write_className (p : TypePath) : className.write p = p.className.toList := by
  rw [TypePath.className, String.toList_append, Text.toList_intercalate_nothing]
  rfl

/-- What can follow, unless it is empty, is a capitalised name. -/
theorem eq_nil_or_continues {a b : String} {more rest : List Char}
    (hfollows : className.Follows (more ++ rest)) (hb : b.toList = a.toList ++ more) :
    a = b ∨ Naming.Continues a b := by
  cases more with
  | nil => exact .inl (String.toList_injective (by simp [hb]))
  | cons c cs =>
      refine .inr ((Naming.continues_iff a b).mpr ⟨c :: cs, ?_, hfollows c rfl⟩)
      exact Text.strip?_eq_some_iff.mpr hb

/-- Different names, neither of which continues the other, can be told apart by what is written. -/
theorem apart_className {a b : String} (hne : a ≠ b) (hab : ¬ Naming.Continues a b)
    (hba : ¬ Naming.Continues b a) : className.Apart a.toList b.toList := by
  intro u v hu hv heq
  rcases List.append_eq_append_iff.mp heq with ⟨more, hb, rfl⟩ | ⟨more, ha, rfl⟩
  · exact (eq_nil_or_continues hu hb).elim hne hab
  · exact (eq_nil_or_continues hv ha).elim hne.symm hba

theorem separates_className {names : List String} (hnodup : names.Nodup)
    (hcapitalised : ∀ name ∈ names, Naming.Capitalised name)
    (hcontinues : ∀ a ∈ names, ∀ b ∈ names, ¬ Naming.Continues a b) :
    className.Separates names where
  ne_nil name hname := by
    obtain ⟨c, rest, hcons, -⟩ := (hcapitalised name hname).eq_cons
    simp [className, hcons]
  follows name hname := by
    obtain ⟨c, rest, hcons, hupper⟩ := (hcapitalised name hname).eq_cons
    simp [Follows, className, hcons, hupper]
  apart := (List.nodup_iff_pairwise_ne.mp hnodup).imp_of_mem fun {a b} ha hb hne =>
    apart_className hne (hcontinues a ha b hb) (hcontinues b hb a ha)

end PathCode

namespace DataClass

/-- The class names of the service can be read in one way only.  Names in containers show where they
begin, and no two of them, nor two names of whole containers, are such that one is the other with
further words behind it. -/
structure Legible (s : Service) : Prop where
  tops : ∀ c ∈ Contents.tops s, ∀ d ∈ Contents.tops s,
    ¬ Naming.Continues c.path.className d.path.className
  capitalised : ∀ c ∈ Contents.ofService s, ∀ name ∈ c.nestedNames, Naming.Capitalised name
  siblings : ∀ c ∈ Contents.ofService s, ∀ a ∈ c.nestedNames, ∀ b ∈ c.nestedNames,
    ¬ Naming.Continues a b

variable {s : Service}

/-- The paths of all containers are distinct if in each place the names are. -/
theorem nodup_path_ofService (hs : s.WellFormed)
    (hoperations : (s.operations.map fun o => Naming.pretty o.name).Nodup)
    (hsiblings : ∀ c ∈ Contents.ofService s, c.nestedNames.Nodup) :
    ((Contents.ofService s).map Contents.path).Nodup := by
  have htops := (Contents.nodup_map_tops_iff TypePath.messageName_top_inj).mpr hoperations
  rw [List.nodup_iff_pairwise_ne, List.pairwise_map] at htops
  refine List.Nodup.of_map PathCode.address.write ?_
  rw [List.map_map]
  refine PathCode.nodup_write_ofService hs
    (fun c hc => PathCode.separates_address (hsiblings c hc)) ?_
  exact htops.imp fun hne u v _ _ heq => hne (List.cons.inj heq).1

/-- The class names are, if these can be read in one way only. -/
theorem nodup_className_ofService (hs : s.WellFormed)
    (hoperations : (s.operations.map fun o => Naming.pretty o.name).Nodup)
    (hsiblings : ∀ c ∈ Contents.ofService s, c.nestedNames.Nodup) (hlegible : Legible s) :
    ((Contents.ofService s).map fun c => c.path.className).Nodup := by
  have htops := (Contents.nodup_map_tops_iff TypePath.className_top_inj).mpr hoperations
  rw [List.nodup_iff_pairwise_ne, List.pairwise_map] at htops
  refine List.Nodup.of_map String.toList ?_
  rw [List.map_map]
  simp only [Function.comp_def, ← PathCode.write_className]
  refine PathCode.nodup_write_ofService hs
    (fun c hc => PathCode.separates_className (hsiblings c hc) (hlegible.capitalised c hc)
      (hlegible.siblings c hc)) ?_
  refine htops.imp_of_mem fun {c d} hc hd hne => ?_
  rw [PathCode.write_className, PathCode.write_className]
  exact PathCode.apart_className hne (hlegible.tops c hc d hd) (hlegible.tops d hd c hc)

/-- The classes of a service are for the paths of its containers. -/
theorem paths_ofService_perm (hs : s.WellFormed) :
    ((ofService s).map DataClass.path).Perm ((Contents.ofService s).map Contents.path) := by
  have hperm := (outline_ofService_perm hs).map Prod.fst
  rwa [List.map_map, List.map_map] at hperm

/-- In an accepted service whose operations have distinct pretty names, and in each container the
fields with dicts, all classes are for different paths, and they have different names if these can
be read in one way only. -/
theorem accepted_service_class_names_nodup {services : List Service} {s : Service}
    (haccepted : (Service.checkAll services).isOk = true) (hs : s ∈ services)
    (hoperations : (s.operations.map fun o => Naming.pretty o.name).Nodup)
    (hsiblings : ∀ c ∈ Contents.ofService s, c.nestedNames.Nodup) :
    ((ofService s).map fun c => c.path).Nodup ∧
      (Legible s → ((ofService s).map fun c => c.path.className).Nodup) := by
  have hwellFormed := (Service.isOk_checkAll_iff services).mp haccepted s hs
  have hperm := paths_ofService_perm hwellFormed
  refine ⟨hperm.nodup_iff.mpr (nodup_path_ofService hwellFormed hoperations hsiblings), ?_⟩
  intro hlegible
  have hnames := hperm.map TypePath.className
  rw [List.map_map, List.map_map] at hnames
  exact hnames.nodup_iff.mpr
    (nodup_className_ofService hwellFormed hoperations hsiblings hlegible)

end DataClass

namespace ClassNamesWitness

open DataType

/-- Names that begin with other names, but not with another word behind these. -/
def depots : Service where
  name := "depots"
  declaredAs := ⟨"app.depots", "depots"⟩
  operations := [
    { Operation.named "get" with
      arguments := [
        .ofType "addr" (dict ⟨[("geo", dict ⟨[("lat", scalar .float)]⟩)]⟩),
        .ofType "address" (dict ⟨[("geo", list (dict ⟨[("lat", scalar .float)]⟩))]⟩)]
      result := dict ⟨[("depot", dict ⟨[("id", scalar .int)]⟩)]⟩ },
    { Operation.named "getter" with result := scalar .string }]
  implementation := none
  webNamespace := none

theorem depots_class_names_nodup :
    (Service.checkAll [depots]).isOk = true ∧ depots ∈ [depots] ∧
      (depots.operations.map fun o => Naming.pretty o.name).Nodup ∧
      (∀ c ∈ Contents.ofService depots, c.nestedNames.Nodup) ∧ DataClass.Legible depots ∧
      ((DataClass.ofService depots).map fun c => c.path).Nodup ∧
      ((DataClass.ofService depots).map fun c => c.path.className).Nodup := by
  have haccepted : (Service.checkAll [depots]).isOk = true := by decide
  have hmem : depots ∈ [depots] := List.mem_singleton.mpr rfl
  have hoperations : (depots.operations.map fun o => Naming.pretty o.name).Nodup := by
    decide +kernel
  have hsiblings : ∀ c ∈ Contents.ofService depots, c.nestedNames.Nodup := by decide +kernel
  have hlegible : DataClass.Legible depots :=
    ⟨by decide +kernel, by decide +kernel, by decide +kernel⟩
  obtain ⟨hpaths, hnames⟩ :=
    DataClass.accepted_service_class_names_nodup haccepted hmem hoperations hsiblings
  exact ⟨haccepted, hmem, hoperations, hsiblings, hlegible, hpaths, hnames hlegible⟩

/-- Two ways to the words `AddrRoad`: the dict `road` inside of `addr`, and the dict `addr_road`. -/
def roads : Service where
  name := "Demo"
  declaredAs := ⟨"app.service", "Demo"⟩
  operations := [{
    Operation.named "get" with
    arguments := [
      .ofType "addr" (dict ⟨[("road", dict ⟨[("no", scalar .int)]⟩)]⟩),
      .ofType "addr_road" (dict ⟨[("zip", scalar .int)]⟩)] }]
  implementation := none
  webNamespace := none

/-- Distinct pretty names in every place do not make class names distinct. -/
theorem not_all_class_names_nodup :
    ¬ ∀ services, (Service.checkAll services).isOk = true → ∀ s ∈ services,
      (s.operations.map fun o => Naming.pretty o.name).Nodup →
      (∀ c ∈ Contents.ofService s, c.nestedNames.Nodup) →
        ((DataClass.ofService s).map fun c => c.path.className).Nodup := by
  intro hall
  have hroads := hall [roads] (by decide) roads (List.mem_singleton.mpr rfl) (by decide +kernel)
    (by decide +kernel)
  revert hroads
  decide +kernel

end ClassNamesWitness

end ServiceGen

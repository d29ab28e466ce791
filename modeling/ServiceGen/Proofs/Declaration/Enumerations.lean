import ServiceGen.Declaration.Assembly
import ServiceGen.Proofs.Declaration.Walk
import ServiceGen.Proofs.Schema.EnumSet
import ServiceGen.Proofs.Schema.Violations

/-!
Which enumerations are collected.  `EnumSet.Found` lists what a walk and the types of services have
to offer, and knows nothing of sets.  Where enumerations of one name agree, the collection has the
definition of each; a refusal is always due to two that do not agree, but not each such pair leads
to one, because a set takes enumerations of one name for the same.
-/

namespace ServiceGen

def ExportedEnum.ofExport? (x : PlacedExport) : Option ExportedEnum :=
  match Finding.ofExport x.2.2 with
  | .enum t => some (.ofType x.2.1 x.1 t)
  | _ => none

/-- Only a type that can be read, and is an enumeration, is exported as one. -/
theorem Finding.ofExport_eq_enum_iff (e : Export) (t : DataType) :
    ofExport e = .enum t ↔ ∃ value, e = .type value ∧
      DataType.ofJson (.ofJson value) = .ok t ∧ t.isEnum = true := by
  cases e with
  | type value =>
      rw [ofExport]
      cases hread : DataType.ofJson (.ofJson value) with
      | error _ => simp [hread]
      | ok u => grind
  | _ => grind [ofExport]

theorem ExportedEnum.ofExport?_eq_some_iff (x : PlacedExport) (e : ExportedEnum) :
    ofExport? x = some e ↔ ∃ value t, x.2.2 = .type value ∧
      DataType.ofJson (.ofJson value) = .ok t ∧ t.isEnum = true ∧ .ofType x.2.1 x.1 t = e := by
  have hfinding : ofExport? x = some e ↔
      ∃ t, Finding.ofExport x.2.2 = .enum t ∧ .ofType x.2.1 x.1 t = e := by
    rw [ofExport?]
    cases Finding.ofExport x.2.2 <;> simp
  rw [hfinding]
  simp only [Finding.ofExport_eq_enum_iff]
  constructor
  · rintro ⟨t, ⟨value, hvalue, hread, henum⟩, he⟩
    exact ⟨value, t, hvalue, hread, henum, he⟩
  · rintro ⟨value, t, hvalue, hread, henum, he⟩
    exact ⟨t, ⟨value, hvalue, hread, henum⟩, he⟩

namespace Findings

theorem enums_record (fs : Findings) (x : PlacedExport) :
    (fs.record x).enums = (ExportedEnum.ofExport? x).elim fs.enums fs.enums.insert := by
  rw [record, ExportedEnum.ofExport?]
  cases Finding.ofExport x.2.2 <;> rfl

theorem enums_foldl_record (exports : List PlacedExport) (fs : Findings) :
    (exports.foldl record fs).enums =
      fs.enums.extend (exports.filterMap ExportedEnum.ofExport?) := by
  induction exports generalizing fs with
  | nil => rfl
  | cons x exports ih =>
      rw [List.foldl_cons, ih, enums_record]
      cases henum : ExportedEnum.ofExport? x <;> simp [henum, EnumSet.extend]

end Findings

namespace Walk

/-- The walks from every module of a catalogue or from one of them, with any depth. -/
inductive IsWalkOf (c : Catalogue) : Walk → Prop
  | everywhere (depth : Nat) : IsWalkOf c (everywhere c depth)
  | fromModule (depth : Nat) (root : String) : IsWalkOf c (fromModule c depth root)

/-- A walk records the exports of the modules that it has entered. -/
theorem IsWalkOf.exists_leg {c : Catalogue} {w : Walk} (hw : IsWalkOf c w) :
    ∃ modules, Leg c start w modules (modules.flatMap ModuleDeclaration.exports) := by
  cases hw with
  | everywhere depth =>
      obtain ⟨modules, hleg, -⟩ :=
        exists_leg_roots (c := c) depth c.modules.values (fun m hm => hm) start
      exact ⟨modules, hleg⟩
  | fromModule depth root =>
      rw [Walk.fromModule]
      cases hroot : c.get? root with
      | none => exact ⟨[], Leg.rest start⟩
      | some m => exact exists_leg_enter (depth + 1) m (OrderedMap.mem_values_of_get? hroot) start

theorem mem_exports_of_leg {c : Catalogue} (hc : c.WellNamed) {w : Walk}
    {modules : List ModuleDeclaration} {exports : List PlacedExport}
    (hleg : Leg c start w modules exports) (x : PlacedExport) :
    x ∈ modules.flatMap ModuleDeclaration.exports ↔ x ∈ c.exports ∧ x.1 ∈ w.visited := by
  have hvisited : ∀ name, name ∈ w.visited ↔ ∃ m ∈ modules, m.name = name := by
    intro name
    rw [hleg.visited, start, List.append_nil, List.mem_reverse, List.mem_map]
  have hplace : ∀ m : ModuleDeclaration, x ∈ m.exports → x.1 = m.name := by
    intro m hx
    obtain ⟨entry, -, rfl⟩ := List.mem_map.mp hx
    rfl
  rw [List.mem_flatMap, Catalogue.exports, List.mem_flatMap, hvisited]
  constructor
  · rintro ⟨m, hm, hx⟩
    exact ⟨⟨m, hleg.known m hm, hx⟩, m, hm, (hplace m hx).symm⟩
  · rintro ⟨⟨m, hm, hx⟩, entered, hentered, hname⟩
    have hsame := List.inj_on_of_nodup_map hc.names_nodup (hleg.known entered hentered) hm
      (hname.trans (hplace m hx))
    exact ⟨entered, hentered, hsame ▸ hx⟩

end Walk

namespace DataType

mutual

/-- The enumerations inside of a type are the enumerations among its nodes. -/
theorem inlineEnums_eq : ∀ t : DataType,
    t.inlineEnums = (t.nodes.map (·.2)).filter isEnum
  | { kind := .void, .. } => rfl
  | { kind := .scalar _, .. } => rfl
  | { kind := .enum .., .. } => rfl
  | { kind := .list element, .. } => by
      rw [inlineEnums, inlineEnums_eq element]
      simp [nodes, isEnum, Function.comp_def]
  | { kind := .dict ⟨fields⟩, .. } => by
      rw [inlineEnums, inlineEnumsOf_eq fields]
      simp [nodes, isEnum]

theorem inlineEnumsOf_eq : ∀ fields : List (String × DataType),
    inlineEnumsOf fields = ((nodesOf fields).map (·.2)).filter isEnum
  | [] => rfl
  | (name, t) :: rest => by
      rw [inlineEnumsOf, inlineEnums_eq t, inlineEnumsOf_eq rest]
      simp [nodesOf, Function.comp_def]

end

end DataType

namespace EnumSet

open ExportedEnum

/-- The enumerations that there are to collect: those exported as types by the modules that a walk
has entered, and those inside of the types of the arguments and results of services, through lists
and dicts. -/
inductive Found (c : Catalogue) (w : Walk) (services : List Service) : ExportedEnum → Prop
  | scanned {module key : String} {value : Json} {t : DataType}
      (hexport : (module, key, Export.type value) ∈ c.exports) (hentered : module ∈ w.visited)
      (hread : DataType.ofJson (.ofJson value) = .ok t) (henum : t.isEnum = true) :
      Found c w services (.ofType key module t)
  | inline {s : Service} {o : Operation} {root : String × DataType}
      {node : List String × DataType} (hs : s ∈ services) (ho : o ∈ s.operations)
      (hroot : root ∈ o.roots) (hnode : node ∈ root.2.nodes) (henum : node.2.isEnum = true) :
      Found c w services (.ofType "" "" node.2)

/-- The enumerations inside of the types of services, in the order in which they are collected. -/
def inlineExports (services : List Service) : List ExportedEnum :=
  ((services.flatMap Service.types).flatMap DataType.inlineEnums).map fun t => .ofType "" "" t

theorem mem_inlineExports_iff (services : List Service) (e : ExportedEnum) :
    e ∈ inlineExports services ↔ ∃ s ∈ services, ∃ o ∈ s.operations, ∃ root ∈ o.roots,
      ∃ node ∈ root.2.nodes, node.2.isEnum = true ∧ .ofType "" "" node.2 = e := by
  have hroots : ∀ (o : Operation) (t : DataType),
      t ∈ o.arguments.map (·.type) ++ [o.result] ↔ ∃ root ∈ o.roots, root.2 = t := by
    intro o t
    simp [Operation.roots, or_and_right, exists_or, eq_comm (a := o.result)]
  simp only [inlineExports, List.mem_map, List.mem_flatMap, Service.types, hroots,
    DataType.inlineEnums_eq, List.mem_filter]
  constructor
  · rintro ⟨-, ⟨-, ⟨s, hs, o, ho, root, hroot, rfl⟩, ⟨node, hnode, rfl⟩, henum⟩, rfl⟩
    exact ⟨s, hs, o, ho, root, hroot, node, hnode, henum, rfl⟩
  · rintro ⟨s, hs, o, ho, root, hroot, node, hnode, henum, rfl⟩
    exact ⟨_, ⟨_, ⟨s, hs, o, ho, root, hroot, rfl⟩, ⟨node, hnode, rfl⟩, henum⟩, rfl⟩

theorem isEnum_ofType (variableName module : String) (t : DataType) :
    (ofType variableName module t).type.isEnum = t.isEnum := by
  obtain ⟨kind⟩ := t
  cases kind with
  | enum name underlying members =>
      simp only [ofType]
      split <;> rfl
  | _ => rfl

/-- What is collected is what is found, in some order. -/
theorem exists_extend_found {c : Catalogue} (hc : c.WellNamed) {w : Walk} (hw : w.IsWalkOf c)
    (services : List Service) :
    ∃ es, (∀ e, e ∈ es ↔ Found c w services e) ∧
      w.found.enums.extend (inlineExports services) = empty.extend es := by
  obtain ⟨modules, hleg⟩ := hw.exists_leg
  obtain ⟨order, hperm, hfound⟩ := hleg.recorded
  refine ⟨order.filterMap ofExport? ++ inlineExports services, fun e => ?_, ?_⟩
  · have horder : ∀ x, x ∈ order ↔ x ∈ c.exports ∧ x.1 ∈ w.visited := fun x =>
      hperm.mem_iff.trans (Walk.mem_exports_of_leg hc hleg x)
    simp only [List.mem_append, List.mem_filterMap, mem_inlineExports_iff, ofExport?_eq_some_iff]
    constructor
    · rintro (⟨⟨module, key, _⟩, hx, value, t, rfl, hread, henum, rfl⟩ |
        ⟨s, hs, o, ho, root, hroot, node, hnode, henum, rfl⟩)
      · exact .scanned ((horder _).mp hx).1 ((horder _).mp hx).2 hread henum
      · exact .inline hs ho hroot hnode henum
    · rintro (⟨hexport, hentered, hread, henum⟩ | ⟨hs, ho, hroot, hnode, henum⟩)
      · exact .inl ⟨_, (horder _).mpr ⟨hexport, hentered⟩, _, _, rfl, hread, henum, rfl⟩
      · exact .inr ⟨_, hs, _, ho, _, hroot, _, hnode, henum, rfl⟩
  · rw [hfound, Findings.enums_foldl_record, extend, extend, extend, List.foldl_append]
    rfl

theorem Found.isEnum {c : Catalogue} {w : Walk} {services : List Service} {e : ExportedEnum}
    (h : Found c w services e) : e.type.isEnum = true := by
  cases h with
  | scanned _ _ _ henum => rw [isEnum_ofType, henum]
  | inline _ _ _ _ henum => rw [isEnum_ofType, henum]

theorem collect_eq (services : List Service) (scanned : EnumSet) :
    collect services scanned =
      match (scanned.extend (inlineExports services)).clash? with
      | some clash => .error (.enumClash clash)
      | none => .ok (scanned.extend (inlineExports services)) :=
  rfl

theorem collect_eq_ok {services : List Service} {scanned all : EnumSet}
    (hall : scanned.extend (inlineExports services) = all) (hclash : all.clash? = none) :
    collect services scanned = .ok all := by
  rw [collect_eq, hall, hclash]

/-- Where the enumerations found of one name agree, they are collected, and the definition of each
is in the collection.  A collection is refused only for two of one name that differ.  But where
every enumeration found has a name, nothing is refused, differ as they may. -/
theorem collect_of_found (documents : List Document) (services : List Service) {w : Walk}
    (hw : w.IsWalkOf (documents.foldl Catalogue.extend .empty)) :
    (NamesAgree (Found (documents.foldl Catalogue.extend .empty) w services) →
        ∃ all, collect services w.found.enums = .ok all ∧
          ∀ e, Found (documents.foldl Catalogue.extend .empty) w services e →
            ∃ f ∈ all.enums, f.SameDefinition e) ∧
      (∀ failure, collect services w.found.enums = .error failure →
        ∃ e f name, Found (documents.foldl Catalogue.extend .empty) w services e ∧
          Found (documents.foldl Catalogue.extend .empty) w services f ∧
            e.name? = some name ∧ f.name? = some name ∧ ¬ e.SameDefinition f ∧
              failure = .enumClash ⟨name, e.module, f.module⟩) ∧
        ((∀ e, Found (documents.foldl Catalogue.extend .empty) w services e →
            e.name?.isSome = true) →
          ∃ all, collect services w.found.enums = .ok all) := by
  obtain ⟨es, hmem, hall⟩ :=
    exists_extend_found (Catalogue.wellNamed_of_documents documents) hw services
  have hes : ∀ e ∈ es, e.type.isEnum = true := fun e he => ((hmem e).mp he).isEnum
  simp only [← hmem]
  refine ⟨fun hagree => ?_, fun failure hfailure => ?_, fun hnamed => ?_⟩
  · have hlisted : NamesAgree (· ∈ es) := fun e f name he hf =>
      hagree e f name ((hmem e).mp he) ((hmem f).mp hf)
    exact ⟨_, collect_eq_ok hall (clash?_eq_none_of_namesAgree hes hlisted),
      exists_definition_of_namesAgree hes hlisted⟩
  · rw [collect_eq, hall] at hfailure
    split at hfailure
    · rename_i clash hclash
      obtain ⟨e, he, f, hf, hdiffer, hename, hfname, hfirst, hsecond⟩ :=
        exists_differing_of_clash? hes hclash
      refine ⟨e, f, clash.name, he, hf, hename, hfname, hdiffer, ?_⟩
      rw [← hfirst, ← hsecond]
      exact (Except.error.inj hfailure).symm
    · cases hfailure
  · exact ⟨_, collect_eq_ok hall (clash?_eq_none_of_named hnamed)⟩

end EnumSet

namespace EnumerationsWitness

open EnumSet

/-- An enumeration over integers with one member, as it is written. -/
def enumJson (description member : String) : Json :=
  .obj [("type", .str "enum"), ("description", .str description),
    ("underlying", .obj [("type", .str "int")]),
    ("members", .obj [(member, .obj [("type", .str "int")])])]

/-- The type that is read from it. -/
def enumType (description member : String) : DataType :=
  { DataType.enumeration none (.scalar .int) ⟨[(member, .scalar .int)]⟩ with description }

def statuses : Document where
  modules := [⟨"app.enums", ⟨[("Status", .type (enumJson "state of a job" "OK"))]⟩⟩]

/-- A service with the same enumeration, without its name, in a dict and in a list. -/
def jobs : Service where
  name := "Jobs"
  declaredAs := ⟨"app", "Jobs"⟩
  operations := [{
    Operation.named "find" with
    arguments := [.ofType "filter" (.dict ⟨[("status", enumType "state of a job" "OK")]⟩)]
    result := .list (enumType "state of a job" "OK") }]
  implementation := none
  webNamespace := none

def jobsWalk : Walk :=
  Walk.fromModule (Catalogue.empty.extend statuses) 0 "app.enums"

theorem eq_of_found {e : ExportedEnum}
    (h : Found (Catalogue.empty.extend statuses) jobsWalk [jobs] e) :
    e = .ofType "Status" "app.enums" (enumType "state of a job" "OK") ∨
      e = .ofType "" "" (enumType "state of a job" "OK") := by
  cases h with
  | scanned hexport _ hread _ =>
      cases List.mem_singleton.mp hexport
      cases Except.ok.inj hread
      exact .inl rfl
  | inline hs ho hroot hnode henum =>
      have hinline := (mem_inlineExports_iff [jobs] _).mpr
        ⟨_, hs, _, ho, _, hroot, _, hnode, henum, rfl⟩
      exact .inr ((List.mem_pair.mp hinline).elim id id)

theorem statuses_collected :
    jobsWalk.IsWalkOf (Catalogue.empty.extend statuses) ∧
      NamesAgree (Found (Catalogue.empty.extend statuses) jobsWalk [jobs]) ∧
        ∃ all, collect [jobs] jobsWalk.found.enums = .ok all ∧
          ∀ e, Found (Catalogue.empty.extend statuses) jobsWalk [jobs] e →
            ∃ f ∈ all.enums, f.SameDefinition e := by
  have hwalk : jobsWalk.IsWalkOf (Catalogue.empty.extend statuses) := .fromModule 0 "app.enums"
  have hagree : NamesAgree (Found (Catalogue.empty.extend statuses) jobsWalk [jobs]) := by
    intro e f name he hf _ _
    rcases eq_of_found he with rfl | rfl <;> rcases eq_of_found hf with rfl | rfl <;>
      exact ⟨rfl, rfl⟩
  exact ⟨hwalk, hagree, (collect_of_found [statuses] [jobs] hwalk).1 hagree⟩

/-- Two modules that export different enumerations of one name. -/
def kinds : Document where
  modules := [⟨"app.a", ⟨[("Kind", .type (enumJson "first" "A"))]⟩⟩,
    ⟨"app.b", ⟨[("Kind", .type (enumJson "second" "B"))]⟩⟩]

def kindsWalk : Walk :=
  Walk.everywhere (Catalogue.empty.extend kinds) Walk.defaultDepth

/-- Of different enumerations of one name only the first one may be collected, without a word. -/
theorem not_all_differing_refused :
    ¬ ∀ (documents : List Document) (services : List Service) (w : Walk),
      w.IsWalkOf (documents.foldl Catalogue.extend .empty) →
        (∃ e f name, Found (documents.foldl Catalogue.extend .empty) w services e ∧
          Found (documents.foldl Catalogue.extend .empty) w services f ∧
            e.name? = some name ∧ f.name? = some name ∧ ¬ e.SameDefinition f) →
          ∃ clash, collect services w.found.enums = .error (.enumClash clash) := by
  intro hall
  have hfirst : Found (Catalogue.empty.extend kinds) kindsWalk []
      (.ofType "Kind" "app.a" (enumType "first" "A")) :=
    .scanned List.mem_cons_self (by decide) rfl rfl
  have hsecond : Found (Catalogue.empty.extend kinds) kindsWalk []
      (.ofType "Kind" "app.b" (enumType "second" "B")) :=
    .scanned (List.mem_cons_of_mem _ List.mem_cons_self) (by decide) rfl rfl
  have hdiffer : ¬ (ExportedEnum.ofType "Kind" "app.a" (enumType "first" "A")).SameDefinition
      (.ofType "Kind" "app.b" (enumType "second" "B")) := by
    intro h
    exact absurd h.description (by decide)
  have haccepted : (collect [] kindsWalk.found.enums).toOption.isSome = true := by decide
  obtain ⟨clash, hclash⟩ := hall [kinds] [] kindsWalk (.everywhere _)
    ⟨_, _, "Kind", hfirst, hsecond, rfl, rfl, hdiffer⟩
  rw [hclash] at haccepted
  cases haccepted

end EnumerationsWitness

end ServiceGen

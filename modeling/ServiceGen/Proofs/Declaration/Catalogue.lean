import Mathlib.Data.List.Nodup
import ServiceGen.Declaration.Walk
import ServiceGen.Proofs.OrderedMap

/-!
What a catalogue declares.  The exports of all modules, references apart, are what a walk can find;
the predicates here are stated on them and know nothing of walks.
-/

namespace ServiceGen

/-- An export with the name of its module and the name of its attribute. -/
abbrev PlacedExport := String × String × Export

def Export.isReference : Export → Bool
  | reference _ => true
  | _ => false

/-- The attributes of the module `name` among some, references apart. -/
def placedExports (name : String) (attributes : List (String × Export)) : List PlacedExport :=
  (attributes.filter fun (_, e) => !e.isReference).map fun (key, e) => (name, key, e)

/-- What a module exports, references apart. -/
def ModuleDeclaration.exports (m : ModuleDeclaration) : List PlacedExport :=
  placedExports m.name m.attributes.entries

/-- The issue of an export that could not be inspected. -/
def Issue.ofExport? (x : PlacedExport) : Option Issue :=
  match x.2.2 with
  | .broken error => some ⟨x.1, x.2.1, error, isHarmless x.1 error⟩
  | _ => none

namespace Catalogue

/-- What the modules of the catalogue export, references apart. -/
def exports (c : Catalogue) : List PlacedExport :=
  c.modules.values.flatMap ModuleDeclaration.exports

/-- A module declares a class of that name with the capability. -/
def DeclaresClass (c : Catalogue) (capability : Capability) (name : ClassName) : Prop :=
  ∃ module key d, (module, key, Export.declaration d) ∈ c.exports ∧
    d.capability = capability ∧ d.className = name

/-- A module has a tagged model of that name which can be read. -/
def DeclaresModel (c : Catalogue) (name : String) : Prop :=
  ∃ module key value m, (module, key, Export.model (some Finding.modelTag) value) ∈ c.exports ∧
    Model.ofJson (.ofJson value) = .ok m ∧ m.name = name

/-- The issues for the attributes that could not be inspected, one for each. -/
def brokenExports (c : Catalogue) : List Issue :=
  c.exports.filterMap Issue.ofExport?

/-- The names in the catalogue are those of its modules, and no two are the same. -/
structure WellNamed (c : Catalogue) : Prop where
  keys_nodup : c.modules.keys.Nodup
  name_eq : ∀ entry ∈ c.modules.entries, entry.2.name = entry.1

theorem wellNamed_empty : empty.WellNamed where
  keys_nodup := List.nodup_nil
  name_eq := by
    intro entry hentry
    cases hentry

theorem WellNamed.register {c : Catalogue} (hc : c.WellNamed) (m : ModuleDeclaration) :
    (c.register m).WellNamed where
  keys_nodup := by
    rw [Catalogue.register, OrderedMap.keys_insert]
    split
    · exact hc.keys_nodup
    · rename_i hnew
      rw [List.nodup_append]
      refine ⟨hc.keys_nodup, List.nodup_singleton m.name, ?_⟩
      intro key hkey other hother heq
      rw [List.mem_singleton.mp hother] at heq
      exact hnew (heq ▸ hkey)
  name_eq := by
    intro entry hentry
    rcases OrderedMap.mem_insertEntry hentry with rfl | hold
    · rfl
    · exact hc.name_eq entry hold

theorem WellNamed.extend {c : Catalogue} (hc : c.WellNamed) (d : Document) :
    (c.extend d).WellNamed := by
  rw [Catalogue.extend]
  induction d.modules generalizing c with
  | nil => exact hc
  | cons m rest ih => exact ih (hc.register m)

theorem wellNamed_of_documents (documents : List Document) :
    (documents.foldl extend empty).WellNamed := by
  suffices h : ∀ c : Catalogue, c.WellNamed → (documents.foldl extend c).WellNamed from
    h empty wellNamed_empty
  induction documents with
  | nil => exact fun c hc => hc
  | cons d rest ih => exact fun c hc => ih (c.extend d) (hc.extend d)

theorem WellNamed.map_name_values {c : Catalogue} (hc : c.WellNamed) :
    c.modules.values.map ModuleDeclaration.name = c.modules.keys := by
  rw [OrderedMap.values, OrderedMap.keys, List.map_map]
  exact List.map_congr_left hc.name_eq

theorem WellNamed.names_nodup {c : Catalogue} (hc : c.WellNamed) :
    (c.modules.values.map ModuleDeclaration.name).Nodup := by
  rw [hc.map_name_values]
  exact hc.keys_nodup

section Registration

/-- Modules registered one after the other, from none on. -/
def registerAll (modules : List ModuleDeclaration) : Catalogue :=
  modules.foldl register empty

theorem foldl_extend (documents : List Document) :
    documents.foldl extend empty = registerAll (documents.flatMap (·.modules)) := by
  rw [registerAll, List.foldl_flatMap]
  rfl

theorem modules_registerAll (modules : List ModuleDeclaration) :
    (registerAll modules).modules = .ofList (modules.map fun m => (m.name, m.complete)) := by
  have hfold : ∀ c : Catalogue, (modules.foldl register c).modules =
      (modules.map fun m => (m.name, m.complete)).foldl
        (fun map (key, value) => map.insert key value) c.modules := by
    induction modules with
    | nil => exact fun c => rfl
    | cons m rest ih => exact fun c => ih (c.register m)
  exact hfold empty

/-- Every name is there once, where it was first registered. -/
theorem keys_registerAll (modules : List ModuleDeclaration) :
    (registerAll modules).modules.keys = (modules.map (·.name)).eraseDups := by
  rw [modules_registerAll, OrderedMap.keys_ofList, List.map_map]
  rfl

/-- Under a name is the module that was last registered. -/
theorem get?_registerAll (modules : List ModuleDeclaration) (name : String) :
    (registerAll modules).get? name =
      (modules.reverse.find? (·.name == name)).map ModuleDeclaration.complete := by
  rw [get?, modules_registerAll, OrderedMap.get?_ofList, ← List.map_reverse]
  induction modules.reverse with
  | nil => rfl
  | cons m rest ih =>
      rw [List.map_cons, List.lookup_cons, List.find?_cons, ih, BEq.comm]
      cases m.name == name <;> rfl

end Registration

end Catalogue

end ServiceGen

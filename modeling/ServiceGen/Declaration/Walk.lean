import ServiceGen.Declaration.DocumentJson
import ServiceGen.Schema.Enumeration
import ServiceGen.Schema.Model
import ServiceGen.Text.Basic

/-!
The modules that are known by name, and walking from module to module along references to collect
what they export.  Every module is inspected once, and the walk does not follow chains of references
that are too long.
-/

namespace ServiceGen

/-- Modules in the order in which their names were first registered. -/
structure Catalogue where
  modules : OrderedMap ModuleDeclaration

namespace Catalogue

def empty : Catalogue := ⟨.empty⟩

/-- The catalogue with a module; one of the same name is replaced in its place. -/
def register (c : Catalogue) (m : ModuleDeclaration) : Catalogue :=
  ⟨c.modules.insert m.name m.complete⟩

/-- The catalogue with the modules of a document. -/
def extend (c : Catalogue) (d : Document) : Catalogue :=
  d.modules.foldl register c

def get? (c : Catalogue) (name : String) : Option ModuleDeclaration :=
  c.modules.get? name

def size (c : Catalogue) : Nat :=
  c.modules.size

end Catalogue

/-- An attribute, called `key` in its module, that could not be inspected.  Known harmless ones are
silenced. -/
structure Issue where
  module : String
  key : String
  message : String
  silenced : Bool
deriving DecidableEq, Repr

namespace Issue

/-- Attributes of display toolkits and of lazy modules cannot be inspected everywhere. -/
def isHarmless (module message : String) : Bool :=
  Text.occurs "_tkinter" message || Text.occurs "six.moves" module

end Issue

/-- What a walk has found. -/
structure Findings where
  services : List ClassDeclaration
  implementations : List ClassDeclaration
  models : List ExportedModel
  enums : EnumSet
  issues : List Issue

/-- What an exported attribute turns out to be. -/
inductive Finding where
  | reference (target : String)
  | service (c : ClassDeclaration)
  | implementation (c : ClassDeclaration)
  | model (m : Model)
  | enum (t : DataType)
  | broken (error : String)
  | nothing

namespace Finding

/-- The tag of the data models of this format. -/
def modelTag : String := "MT"

/-- What an exported attribute turns out to be; models and types that cannot be read are
nothing. -/
def ofExport : Export → Finding
  | .reference target => reference target
  | .declaration c =>
      match c.capability with
      | .serviceBase => service c
      | .implementation => implementation c
      | _ => nothing
  | .model tag value =>
      if tag = some modelTag then
        match Model.ofJson (.ofJson value) with
        | .ok m => model m
        | .error _ => nothing
      else nothing
  | .type value =>
      match DataType.ofJson (.ofJson value) with
      | .ok t => if t.isEnum then enum t else nothing
      | .error _ => nothing
  | .opaqueValue => nothing
  | .broken error => broken error

end Finding

namespace Findings

def none : Findings :=
  { services := [], implementations := [], models := [], enums := .empty, issues := [] }

/-- The classes with one more, unless one of the same name and module is there. -/
def addClass (c : ClassDeclaration) (cs : List ClassDeclaration) : List ClassDeclaration :=
  if (cs.map (·.className)).contains c.className then cs else cs ++ [c]

/-- The models with one more, unless one of the same name is there. -/
def addModel (m : ExportedModel) (ms : List ExportedModel) : List ExportedModel :=
  if (ms.map (·.model.name)).contains m.model.name then ms else ms ++ [m]

/-- The findings with that of an attribute; a reference adds nothing itself. -/
def add (fs : Findings) (module key : String) : Finding → Findings
  | .service c => { fs with services := addClass c fs.services }
  | .implementation c => { fs with implementations := addClass c fs.implementations }
  | .model m => { fs with models := addModel ⟨key, module, m⟩ fs.models }
  | .enum t => { fs with enums := fs.enums.insert (.ofType key module t) }
  | .broken error =>
      { fs with issues :=
          fs.issues ++ [⟨module, key, error, Issue.isHarmless module error⟩] }
  | .reference _ | .nothing => fs

end Findings

/-- A walk: the names of the modules it has inspected, and what it has found in them. -/
structure Walk where
  visited : List String
  found : Findings

namespace Walk

/-- The walk before its first step. -/
def start : Walk := ⟨[], .none⟩

/-- How many references a walk follows in a row unless it is told otherwise. -/
def defaultDepth : Nat := 10

/-- The walk after entering a module, where `steps` is one more than the number of references that
may still be followed. -/
def enter (c : Catalogue) : (steps : Nat) → ModuleDeclaration → Walk → Walk
  | 0, _, w => w
  | steps + 1, m, w =>
      if w.visited.contains m.name then w
      else
        m.attributes.entries.foldl
          (fun w (key, e) =>
            match Finding.ofExport e with
            | .reference target =>
                match c.get? target with
                | some next => enter c steps next w
                | none => w
            | finding => { w with found := w.found.add m.name key finding })
          { w with visited := m.name :: w.visited }

/-- The walk from one module; nothing is found when it is not known. -/
def fromModule (c : Catalogue) (depth : Nat) (name : String) : Walk :=
  match c.get? name with
  | some m => enter c (depth + 1) m start
  | none => start

/-- The walk from every module in turn. -/
def everywhere (c : Catalogue) (depth : Nat) : Walk :=
  c.modules.values.foldl (fun w m => enter c (depth + 1) m w) start

end Walk

end ServiceGen

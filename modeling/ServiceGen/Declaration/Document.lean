import ServiceGen.Declaration.TypeHint
import ServiceGen.Schema.Service

/-!
Declaration documents.  A program exports what its modules contain: classes with their members,
data models, enumeration types, and references to other modules.
-/

namespace ServiceGen

/-- The role that a class declaration claims. -/
inductive Capability where
  | none | serviceBase | serviceRoot | implementation | implementationRoot
deriving DecidableEq, Repr

/-- What a member of a class is. -/
inductive MemberKind where
  | function | staticMethod | classMethod | property | value
deriving DecidableEq, Repr

def MemberKind.isCallable : MemberKind → Bool
  | function | staticMethod | classMethod => true
  | property | value => false

structure Parameter where
  name : String
  hint : Option TypeHint

/-- The positional parameters of a function; the defaults belong to the last of them. -/
structure Signature where
  parameters : List Parameter
  defaults : List Json

namespace Signature

/-- The signature without parameters. -/
def empty : Signature := ⟨[], []⟩

/-- The parameters without a receiver in front. -/
def positional (s : Signature) : List Parameter :=
  match s.parameters with
  | p :: rest => if p.name == "self" || p.name == "cls" then rest else p :: rest
  | [] => []

/-- The number of parameters with a hint, a receiver included. -/
def annotatedCount (s : Signature) : Nat :=
  (s.parameters.filter (·.hint.isSome)).length

/-- The default of a positional parameter.  The defaults are aligned to the end; of more defaults
than parameters none belongs to any. -/
def defaultFor? (s : Signature) (name : String) : Option Json :=
  let positional := s.positional
  if positional.length < s.defaults.length then none
  else
    match positional.findIdx? (·.name == name) with
    | none => none
    | some index =>
        let offset := positional.length - s.defaults.length
        if index < offset then none else s.defaults[index - offset]?

end Signature

/-- The description of a parameter: a field object, or attributes among which `type` holds the
hint. -/
inductive ParameterSpec where
  | field (f : WebField)
  | attributes (a : Attributes)

/-- The description of an answer: named hints, or one hint. -/
inductive ResponseSpec where
  | model (m : OrderedMap TypeHint)
  | hint (a : TypeHint)

/-- The answer for a status code. -/
structure Response where
  description : Option String
  spec : Option ResponseSpec

/-- The documentation of a member: its parameters, what it expects in addition, and its answers by
the text of their status code. -/
structure MemberDoc where
  params : OrderedMap ParameterSpec
  expect : List (OrderedMap ParameterSpec)
  responses : SortedMap String Response

/-- The documentation of a class: parameters that all of its members have. -/
structure ClassDoc where
  params : OrderedMap Attributes

/-- A member of a class.  `plainArguments` and `plainResult` state its types directly. -/
structure Member where
  kind : MemberKind
  doc : Option String
  plainArguments : Option DataType
  plainResult : Option DataType
  memberDoc : Option MemberDoc
  signature : Signature

/-- A class.  Its name and its module may be left empty where the place of the declaration says
them. -/
structure ClassDeclaration where
  name : String
  module : String
  capability : Capability
  implementationName : Option String
  classDoc : Option ClassDoc
  webNamespace : Option WebNamespace
  members : OrderedMap Member

namespace ClassDeclaration

/-- The class as it is addressed from elsewhere. -/
def className (c : ClassDeclaration) : ClassName :=
  ⟨c.module, c.name⟩

/-- The name that an implementation of the class has. -/
def implementedBy (c : ClassDeclaration) : String :=
  c.implementationName.getD c.name

end ClassDeclaration

/-- One exported attribute of a module. -/
inductive Export where
  /-- A reference to another module. -/
  | reference (target : String)
  | declaration (c : ClassDeclaration)
  /-- A data model; `tag` says whether it is one of this format. -/
  | model (tag : Option String) (model : Json)
  | type (value : Json)
  | opaqueValue
  /-- An attribute that could not be inspected. -/
  | broken (error : String)

structure ModuleDeclaration where
  name : String
  attributes : OrderedMap Export

/-- The modules that are exported together. -/
structure Document where
  modules : List ModuleDeclaration

namespace ModuleDeclaration

/-- A class takes the name of its attribute and the name of its module where it has none. -/
def completeClass (module key : String) (c : ClassDeclaration) : ClassDeclaration :=
  { c with
    name := if c.name.isEmpty then key else c.name
    module := if c.module.isEmpty then module else c.module }

/-- The module with the names of its classes filled in. -/
def complete (m : ModuleDeclaration) : ModuleDeclaration :=
  { m with attributes := ⟨m.attributes.entries.map fun (key, e) =>
      match e with
      | .declaration c => (key, .declaration (completeClass m.name key c))
      | other => (key, other)⟩ }

end ModuleDeclaration

end ServiceGen

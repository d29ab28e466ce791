import ServiceGen.Schema.Operation

/-!
Services with their operations, the class that implements them, and the web namespace under which
they are mounted.
-/

namespace ServiceGen

/-- A class, addressed by the module that declares it. -/
structure ClassName where
  module : String
  name : String
deriving DecidableEq, Repr

namespace ClassName

/-- The dotted name of a class. -/
def render (c : ClassName) : String :=
  c.module ++ "." ++ c.name

/-- Reads the name of a class. -/
def ofJson : Part → Reading ClassName :=
  Part.readRecord (.mk <$> .required "module" Part.readText <*> .required "name" Part.readText)

/-- Writes the name of a class. -/
def toJson (c : ClassName) : Json :=
  .obj [("module", .str c.module), ("name", .str c.name)]

end ClassName

/-- The web namespace of a service.  Its parameters are shared by all of its routes. -/
structure WebNamespace where
  name : String
  description : String
  urls : List String
  params : Fields

namespace WebNamespace

/-- The namespace without a name. -/
def unnamed : WebNamespace :=
  { name := "", description := "", urls := [], params := .empty }

def ofJson : Part → Reading WebNamespace :=
  Part.readRecord
    (.mk <$> .required "name" Part.readText
      <*> .optional "description" Part.readText ""
      <*> .optional "urls" (Part.readList Part.readText) []
      <*> .optional "params" DataType.fieldsOfJson .empty)

def toJson (n : WebNamespace) : Json :=
  .obj [("name", .str n.name), ("description", .str n.description),
    ("urls", .arr (n.urls.map .str)), ("params", DataType.fieldsToJson n.params)]

end WebNamespace

/-- A service: the name under which it is offered, the class that declares it, its operations, and,
if they are known, the class that implements it and its namespace. -/
structure Service where
  name : String
  declaredAs : ClassName
  operations : List Operation
  implementation : Option ClassName
  webNamespace : Option WebNamespace

namespace Service

def operation? (s : Service) (name : String) : Option Operation :=
  s.operations.find? (·.name == name)

def ofJson : Part → Reading Service :=
  Part.readRecord
    (.mk <$> .required "name" Part.readText
      <*> .required "service" ClassName.ofJson
      <*> .required "entries" (Part.readList Operation.ofJson)
      <*> .optional "implementation" (Part.readOptional ClassName.ofJson) none
      <*> .optional "namespace" (Part.readOptional WebNamespace.ofJson) none)

def toJson (s : Service) : Json :=
  .obj ([("name", .str s.name), ("service", s.declaredAs.toJson),
      ("entries", .arr (s.operations.map Operation.toJson))]
    ++ member? "implementation" ClassName.toJson s.implementation
    ++ member? "namespace" WebNamespace.toJson s.webNamespace)

end Service

end ServiceGen

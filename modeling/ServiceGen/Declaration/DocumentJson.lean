import ServiceGen.Declaration.Document

/-!
How declaration documents are written in JSON.
-/

namespace ServiceGen

namespace Capability

def word : Capability → String
  | none => "none"
  | serviceBase => "service_base"
  | serviceRoot => "service_root"
  | implementation => "implementation"
  | implementationRoot => "implementation_root"

def ofJson : Part → Reading Capability :=
  Part.readWord ([none, serviceBase, serviceRoot, implementation, implementationRoot].map
    fun c => (c.word, c))

end Capability

namespace MemberKind

def word : MemberKind → String
  | function => "function"
  | staticMethod => "static_method"
  | classMethod => "class_method"
  | property => "property"
  | value => "attribute"

/-- Reads a kind of member. -/
def ofJson : Part → Reading MemberKind :=
  Part.readWord ([function, staticMethod, classMethod, property, value].map
    fun k => (k.word, k))

end MemberKind

namespace Parameter

def ofJson : Part → Reading Parameter :=
  Part.readRecord
    (.mk <$> .required "name" Part.readText
      <*> .optional "annotation"
        (Part.readOptional fun p => TypeHint.ofJson <$> p.readWritten) none)

def toJson (p : Parameter) : Json :=
  .obj (("name", .str p.name) :: member? "annotation" TypeHint.toJson p.hint)

end Parameter

namespace Signature

def ofJson : Part → Reading Signature :=
  Part.readRecord
    (.mk <$> .optional "params" (Part.readList Parameter.ofJson) []
      <*> .optional "defaults" (Part.readList Part.readAny) [])

def toJson (s : Signature) : Json :=
  .obj [("params", .arr (s.parameters.map Parameter.toJson)), ("defaults", .arr s.defaults)]

end Signature

namespace ParameterSpec

/-- Reads the description of a parameter: a field object if it is one, else attributes. -/
def ofJson (p : Part) : Reading ParameterSpec := do
  match TypeHint.fieldOfJson (← p.readWritten) with
  | .ok f => return .field f
  | .error _ => return .attributes (← Attributes.ofJson p)

/-- Writes the description of a parameter. -/
def toJson : ParameterSpec → Json
  | field f => TypeHint.fieldToJson f
  | attributes a => a.toJson

end ParameterSpec

namespace ResponseSpec

/-- Reads the description of an answer: an object is a model unless one of the names of hints
is in it. -/
def ofJson (p : Part) : Reading ResponseSpec := do
  match ← p.readAny with
  | .obj members =>
      let names := members.map (·.1)
      if names.contains "field" || names.contains "builtin" then
        .ok (.hint (TypeHint.ofJson (.obj members)))
      else (TypeHint.modelOfJson (.obj members)).map .model
  | other => .ok (.hint (TypeHint.ofJson other))

/-- Writes the description of an answer. -/
def toJson : ResponseSpec → Json
  | model m => TypeHint.modelToJson m
  | hint a => a.toJson

end ResponseSpec

namespace Response

/-- Reads an answer: a pair of its description and its specification. -/
def ofJson (p : Part) : Reading Response :=
  match p.tree with
  | .arr [description, spec] true => do
      return ⟨← Part.readOptional Part.readText ⟨description, p.held⟩,
        ← Part.readOptional ResponseSpec.ofJson ⟨spec, p.held⟩⟩
  | _ => .error .mismatch

def toJson (r : Response) : Json :=
  .arr [(r.description.map Json.str).getD .null, (r.spec.map ResponseSpec.toJson).getD .null]

end Response

namespace MemberDoc

def readParams : Part → Reading (OrderedMap ParameterSpec) :=
  Part.readMap ParameterSpec.ofJson

def paramsToJson (params : OrderedMap ParameterSpec) : Json :=
  .obj (params.map ParameterSpec.toJson).entries

def ofJson : Part → Reading MemberDoc :=
  Part.readRecord
    (.mk <$> .optional "params" readParams .empty
      <*> .optional "expect" (Part.readList readParams) []
      <*> .optional "responses"
        (fun p => SortedMap.ofList <$> p.readMembers Response.ofJson) .empty)

def toJson (d : MemberDoc) : Json :=
  .obj [("params", paramsToJson d.params), ("expect", .arr (d.expect.map paramsToJson)),
    ("responses", .obj (d.responses.map Response.toJson).entries)]

end MemberDoc

namespace ClassDoc

def ofJson : Part → Reading ClassDoc :=
  Part.readRecord (.mk <$> .optional "params" (Part.readMap Attributes.ofJson) .empty)

def toJson (d : ClassDoc) : Json :=
  .obj [("params", .obj (d.params.map Attributes.toJson).entries)]

end ClassDoc

namespace Member

def ofJson : Part → Reading Member :=
  Part.readRecord
    (.mk <$> .optional "kind" MemberKind.ofJson .function
      <*> .optional "doc" (Part.readOptional Part.readText) none
      <*> .optional "rpc_doc_args" (Part.readOptional DataType.ofJson) none
      <*> .optional "rpc_doc_resp" (Part.readOptional DataType.ofJson) none
      <*> .optional "apidoc" (Part.readOptional MemberDoc.ofJson) none
      <*> .optional "signature" Signature.ofJson .empty)

def toJson (m : Member) : Json :=
  .obj ([("kind", .str m.kind.word)] ++ member? "doc" .str m.doc
    ++ member? "rpc_doc_args" DataType.toJson m.plainArguments
    ++ member? "rpc_doc_resp" DataType.toJson m.plainResult
    ++ member? "apidoc" MemberDoc.toJson m.memberDoc
    ++ [("signature", m.signature.toJson)])

end Member

namespace ClassDeclaration

def reader : RecordReader Part ClassDeclaration :=
  .mk <$> .optional "name" Part.readText ""
    <*> .optional "module" Part.readText ""
    <*> .optional "capability" Capability.ofJson .none
    <*> .optional "impl_rename" (Part.readOptional Part.readText) none
    <*> .optional "apidoc" (Part.readOptional ClassDoc.ofJson) none
    <*> .optional "namespace" (Part.readOptional WebNamespace.ofJson) none
    <*> .optional "members" (Part.readMap Member.ofJson) .empty

def ofJson : Part → Reading ClassDeclaration :=
  Part.readRecord reader

def jsonMembers (c : ClassDeclaration) : List (String × Json) :=
  [("name", .str c.name), ("module", .str c.module), ("capability", .str c.capability.word)]
    ++ member? "impl_rename" .str c.implementationName
    ++ member? "apidoc" ClassDoc.toJson c.classDoc
    ++ member? "namespace" WebNamespace.toJson c.webNamespace
    ++ [("members", .obj (c.members.map Member.toJson).entries)]

def toJson (c : ClassDeclaration) : Json :=
  .obj c.jsonMembers

end ClassDeclaration

namespace Export

/-- Reads an attribute of the kind that a word stands for. -/
def ofRecord (word : String) (r : Record Part) : Reading Export :=
  match word with
  | "module" => (Export.reference <$> RecordReader.required "target" Part.readText).run r
  | "class" => (Export.declaration <$> ClassDeclaration.reader).run r
  | "model" =>
      (Export.model <$> RecordReader.optional "tag" (Part.readOptional Part.readText) none
        <*> RecordReader.required "model" Part.readAny).run r
  | "type" => (Export.type <$> RecordReader.required "value" Part.readAny).run r
  | "opaque" => (pure .opaqueValue : RecordReader Part Export).run r
  | "broken" => (Export.broken <$> RecordReader.required "error" Part.readText).run r
  | _ => .error .mismatch

/-- Reads an attribute: a record whose member `kind`, or whose first item, names its kind.  It is
taken in as a whole, since the kind may be named behind what depends on it. -/
def ofJson (p : Part) : Reading Export := do
  match (← p.hold).tree with
  | .obj members complete =>
      let parts := Part.members true members
      match Record.occurrences "kind" parts with
      | [(_, tag)] => ofRecord (← tag.readText) (.named (parts.filter (·.1 != "kind")) complete)
      | _ => throw .mismatch
  | .arr (tag :: items) complete =>
      ofRecord (← Part.readText ⟨tag, true⟩) (.positional (items.map (⟨·, true⟩)) complete)
  | _ => throw .mismatch

def toJson : Export → Json
  | reference target => .obj [("kind", .str "module"), ("target", .str target)]
  | declaration c => .obj (("kind", .str "class") :: c.jsonMembers)
  | model tag value =>
      .obj [("kind", .str "model"), ("tag", (tag.map Json.str).getD .null), ("model", value)]
  | type value => .obj [("kind", .str "type"), ("value", value)]
  | opaqueValue => .obj [("kind", .str "opaque")]
  | broken error => .obj [("kind", .str "broken"), ("error", .str error)]

end Export

namespace ModuleDeclaration

def ofJson : Part → Reading ModuleDeclaration :=
  Part.readRecord
    (.mk <$> .required "name" Part.readText
      <*> .optional "attrs" (Part.readMap Export.ofJson) .empty)

def toJson (m : ModuleDeclaration) : Json :=
  .obj [("name", .str m.name), ("attrs", .obj (m.attributes.map Export.toJson).entries)]

end ModuleDeclaration

namespace Document

def ofJson : Part → Reading Document :=
  Part.readRecord (.mk <$> .optional "modules" (Part.readList ModuleDeclaration.ofJson) [])

def toJson (d : Document) : Json :=
  .obj [("modules", .arr (d.modules.map ModuleDeclaration.toJson))]

end Document

end ServiceGen

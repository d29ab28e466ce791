import ServiceGen.Failure
import ServiceGen.Number.Binary64
import ServiceGen.Stub.Module
import ServiceGen.Text.Basic

/-!
Web resources: for each service a namespace with documented models and a resource class, whose
methods take their arguments from the request and call the implementation.
-/

namespace ServiceGen

open ServiceGen.Number

namespace DataType

/-- The class of the web field for a type. -/
def webFieldClass (t : DataType) : String :=
  match t.kind with
  | .list _ => "fields.List"
  | .dict _ => "fields.Nested"
  | _ =>
      match t.scalarKind? with
      | some .bool => "fields.Boolean"
      | some .float => "fields.Float"
      | some .int => "fields.Integer"
      | some .string | none => "fields.String"

def defaultLine (t : DataType) (before : String) : List Block :=
  match t.default? with
  | some _ => [.line (before ++ t.defaultLiteral ++ ",")]
  | none => []

def noteLines (t : DataType) : List Block :=
  let real (name : String) (bound : Option Binary64) : List Block :=
    (bound.map fun x => Block.line (name ++ "=" ++ x.render .plain ++ ",")).toList
  let nat (name : String) (bound : Option Nat) : List Block :=
    (bound.map fun n => Block.line (name ++ "=" ++ toString n ++ ",")).toList
  [.line ("required=" ++ Literal.truth t.required ++ ","),
    .line ("description=" ++ Literal.quote t.description ++ ",")]
  ++ t.defaultLine "default="
  ++ real "min" t.constraints.minimum ++ real "max" t.constraints.maximum
  ++ nat "min_length" t.constraints.minLength ++ nat "max_length" t.constraints.maxLength
  ++ nat "min_items" t.constraints.minItems ++ nat "max_items" t.constraints.maxItems

end DataType

namespace WebModel

def opening (before name : String) : Block :=
  .line (before ++ "api.model(" ++ Literal.quote name ++ ", \x7b")

/-- The name of the model for a field of another. -/
def nestedName (model field : String) : String :=
  Naming.pretty (model ++ "_" ++ field)

mutual

/-- The entries of a model; what is void or sent as a header is not part of it. -/
def fieldBlocks (model : String) : List (String × DataType) → List Block
  | [] => []
  | (name, t) :: rest =>
      (if t.isVoid || t.source = .header then []
      else
        Block.around (Literal.quote name ++ ": " ++ t.webFieldClass ++ "(")
          (partBlocks (nestedName model name) t ++ t.noteLines) "),")
      ++ fieldBlocks model rest

/-- The part of an entry that says what is inside of it. -/
def partBlocks (model : String) : DataType → List Block
  | { kind := .dict ⟨fields⟩, .. } =>
      [opening "model=" model, .nest (fieldBlocks model fields), .line "\x7d),"]
  | { kind := .list element, .. } =>
      Block.around (element.webFieldClass ++ "(")
        (elementBlocks model element ++ element.noteLines) "),"
  | _ => []

/-- The part of a list that says what is inside of its elements. -/
def elementBlocks (model : String) : DataType → List Block
  | { kind := .dict ⟨fields⟩, .. } =>
      [opening "model=" model, .nest (fieldBlocks model fields), .line "\x7d),"]
  | _ => []

end

end WebModel

namespace Service

/-- The text in a module's name after which the packages of the output are named. -/
def packageMark : String := "define.api."

/-- The path of the resource module of a service, without an extension. -/
def modulePath (s : Service) : Path :=
  let packages := match Text.cut? packageMark.toList s.declaredAs.module.toList with
    | some (_, after) => Text.splitAt '.' (.ofList after)
    | none => []
  (packages.foldl Path.push .empty).push (Naming.snake s.name)

/-- The namespace of a service.  Without one of its own it is called after the service, and without
an address it is found under its name. -/
def mountedAt (s : Service) : WebNamespace :=
  let stem := Naming.snake s.name
  let n := s.webNamespace.getD { WebNamespace.unnamed with name := stem }
  if n.urls.isEmpty then { n with urls := ["/" ++ stem] } else n

def modelName (s : Service) (o : Operation) (what : String) : String :=
  Naming.pretty (s.className ++ "_" ++ o.name ++ "_" ++ what ++ "_model")

end Service

namespace Operation

/-- The name of operations that take their arguments in the address. -/
def queryName : String := "get"

/-- The arguments that are documented in the model of an operation: not those of the path, which
belong to the namespace, nor those in headers, nor void ones. -/
def documentedArguments (o : Operation) : Fields :=
  .ofList ((o.arguments.filter fun a =>
    a.source != .path && a.source != .header && !a.type.isVoid).map fun a => (a.name, a.field))

end Operation

namespace WebResource

/-- The documentation of an argument in the address. -/
def queryArgument (name : String) (t : DataType) : List Block :=
  Block.around (Literal.quote name ++ ": \x7b")
    ([.line ("\"type\": " ++ t.typeName ++ ","),
      .line ("\"required\": " ++ Literal.truth t.required ++ ","),
      .line ("\"description\": " ++ Literal.quote t.description ++ ",")]
    ++ t.defaultLine "\"default\": ") "\x7d,"

def argumentModel (s : Service) (o : Operation) : Except Failure (List Block) := do
  let model := s.modelName o "arg"
  let arguments := o.documentedArguments.entries
  let body ←
    if o.name == Operation.queryName then
      match arguments.find? fun (_, t) => !t.isSingleValue with
      | some (name, _) => throw (.nestedGetParameter s.className o.name name)
      | none =>
          pure (Block.around "params=\x7b"
            (arguments.flatMap fun (name, t) => queryArgument name t) "\x7d")
    else
      pure [WebModel.opening "expect=[" model, .nest (WebModel.fieldBlocks model arguments),
        .line "\x7d)]"]
  return Block.around (model ++ " = ns.doc(")
    (.line (Literal.quote model ++ ",") :: body) ")"

/-- The fields that the model for a result documents. -/
def resultFields (o : Operation) : List (String × DataType) :=
  match o.result.kind with
  | .void => []
  | .dict fields => fields.entries
  | _ => [(dataField, o.result)]

def resultModel (s : Service) (o : Operation) : List Block :=
  let model := s.modelName o "result"
  Block.around (model ++ " = ns.response(")
    [.line "200,", .line (Literal.quote o.result.description ++ ","),
      WebModel.opening "" model, .nest (WebModel.fieldBlocks model (resultFields o)),
      .line "\x7d)"] ")"

def headerBlocks (a : Argument) : List Block :=
  Block.around "@api.header("
    [.line (Literal.quote a.name ++ ","),
      .line ("description=" ++ Literal.quote a.description ++ ","),
      .line ("required=" ++ Literal.truth a.required ++ ","),
      .line ("type=" ++ a.type.typeName ++ ","),
      .line ("default=" ++ a.field.defaultLiteral ++ ",")] ")"

def methodBody (s : Service) (o : Operation) : List Block :=
  [.line "\"\"\""] ++ Block.lines o.description ++ [.line "\"\"\"",
    .line "# extract args with method_name, define class, args type, addition args",
    .line ("args = self.extract_args(\"" ++ o.name ++ "\", " ++ s.className ++ "Define, "
      ++ s.containerClass o .argument ++ ", *args, **kwargs)")]
  ++ (if s.implementation.isSome then
      [.line ("impl = " ++ s.className ++ "Impl()"), .line ("return impl." ++ o.name ++ "(args)")]
    else [.line "raise NotImplementedError(\"Please Implement the logic first\")"])

def method (s : Service) (o : Operation) : List Block :=
  [.line ("@" ++ s.modelName o "arg"), .line ("@" ++ s.modelName o "result")]
  ++ (o.arguments.filter (·.source = .header)).flatMap headerBlocks
  ++ Block.colon
    ("def " ++ o.name ++ "(self, *args, **kwargs) -> " ++ s.containerClass o .result)
    (methodBody s o)

/-- The import of the implementation, under the name that the methods use. -/
def implementationImport (s : Service) : List Block :=
  match s.implementation with
  | none => []
  | some c =>
      let localName := s.className ++ "Impl"
      [.line ("from " ++ c.module ++ " import "
        ++ (if c.name == localName then localName else c.name ++ " as " ++ localName))]

def containerImport (s : Service) : List Block :=
  let containers := s.operations.flatMap fun o =>
    [s.containerClass o .argument, s.containerClass o .result]
  if containers.isEmpty then []
  else
    [.line ("from ." ++ Naming.snake s.name ++ "_def import " ++ ", ".intercalate containers)]

def imports (options : StubOptions) (s : Service) : List Block :=
  [.line "from flask_restplus import fields",
    .line ("from " ++ options.runtimePath ++ ".runtime.web import SSResource"),
    .line ("from " ++ options.apiPath ++ " import api")]
  ++ implementationImport s
  ++ [.line ("from " ++ s.declaredAs.module ++ " import " ++ s.declaredAs.name ++ " as "
    ++ s.className ++ "Define")]
  ++ containerImport s

def models (s : Service) : Except Failure (List Block) := do
  let blocks ← s.operations.mapM fun o => do
    return Block.blank :: (← argumentModel s o) ++ [.blank] ++ resultModel s o
  return blocks.flatten

/-- The resource class with its addresses and shared parameters. -/
def resourceClass (s : Service) : List Block :=
  let n := s.mountedAt
  n.urls.map (fun url => Block.line ("@ns.route(" ++ Literal.quote url ++ ")"))
  ++ n.params.entries.map (fun (name, t) =>
    Block.line ("@ns.param(" ++ Literal.quote name ++ ", " ++ Literal.quote t.description ++ ")"))
  ++ Block.colon ("class " ++ s.className ++ "Resource(SSResource)")
    (s.operations.flatMap fun o => .blank :: method s o)

def module (options : StubOptions) (s : Service) : Except Failure (List Block) := do
  let n := s.mountedAt
  return imports options s ++ [.blank, .blank,
      .line ("ns = api.namespace(" ++ Literal.quote n.name ++ ", description="
        ++ Literal.quote n.description ++ ")"),
      .blank]
    ++ (← models s) ++ [.blank, .blank] ++ resourceClass s

/-- The files of a service: its resource module, and the data classes next to it. -/
def files (options : StubOptions) (s : Service) : Except Failure (List GeneratedFile) := do
  let path := s.modulePath
  return [⟨path.withExtension "py", Block.render (← module options s)⟩,
    ⟨path.withFileName (Naming.snake s.name ++ "_def.py"),
      Block.render (s.definitionsModule options)⟩]

/-- The module that imports all resource modules and that of the enumerations. -/
def registryModule (services : List Service) : String :=
  let imports := services.map fun s =>
    "from ." ++ ".".intercalate (s.modulePath.components.map Component.text) ++ " import *"
  "\n".intercalate (imports.mergeSort (· ≤ ·) ++ ["from .ss_enum import *"]) ++ "\n"

end WebResource

end ServiceGen

import ServiceGen.Declaration.Document
import ServiceGen.Declaration.Typing
import ServiceGen.Failure
import ServiceGen.Text.Basic

/-!
The operations that a class declares: one for each public method, with its arguments and answers
put together from the documentation of the class and of the method, from the docstring and from the
signature.

A docstring begins with a summary; after it, `:param NAME:` introduces the text about a parameter
and `:return` the one about the answer.
-/

namespace ServiceGen

namespace Docstring

open Text

/-- What introduces the text about a parameter. -/
def paramMark : String := ":param"

/-- What introduces the text about the answer, up to the colon. -/
def returnMark : String := ":return"

/-- The text up to the first of the marks, trimmed. -/
def textUntil (marks : List String) (cs : List Char) : String :=
  trim (.ofList (untilAny (marks.map String.toList) cs))

/-- The summary: the text before the first parameter and before the text about the answer. -/
def summary (doc : String) : String :=
  textUntil [paramMark, returnMark ++ ":"] doc.toList

/-- The text about a parameter, up to the next mark, unless it is empty. -/
def param? (doc name : String) : Option String :=
  match cut? (paramMark ++ " " ++ name ++ ":").toList doc.toList with
  | none => none
  | some (_, after) => some (textUntil [paramMark, returnMark] after) |>.filter (!·.isEmpty)

end Docstring

/-- A result that comes with a count of what was lost on the way to it. -/
abbrev Counted (α : Type) := StateT Degradations (Except Failure) α

namespace Counted

/-- Counts what was lost. -/
def record {α : Type} (r : α × Degradations) : Counted α :=
  fun d => .ok (r.1, d + r.2)

end Counted

/-- Items in the order of their names, whatever the case of the letters; items with equal names
keep their order. -/
def sortByName {α : Type} (name : α → String) (items : List α) : List α :=
  items.mergeSort fun a b => Text.lowerCase (name a) ≤ Text.lowerCase (name b)

/-- Where an argument of a method is read from, unless its type says so itself. -/
def DataType.locationIn (method : String) (t : DataType) : Location :=
  match t.source with
  | .unknown =>
      match method with
      | "get" => .params
      | "post" => .body
      | _ => .unknown
  | source => source

def Attributes.hint? (a : Attributes) : Option TypeHint :=
  (a.present? "type").map TypeHint.ofJson

/-- The location among attributes, as it is written. -/
def Attributes.location? (a : Attributes) : Option String :=
  (a.present? "in").bind Json.str?

/-- Reads a status code: digits, perhaps after a plus sign, below `2 ^ 16`. -/
def statusCode? (text : String) : Option Nat :=
  let digits := match text.toList with
    | '+' :: rest => rest
    | cs => cs
  if digits.isEmpty || !digits.all Char.isDigit then none
  else
    let code := Numeral.digitsValue digits
    if code < Nat.pow 2 16 then some code else none

namespace Response

def type (r : Response) : Counted DataType :=
  let description := r.description.getD ""
  match r.spec with
  | none => pure { DataType.void with description }
  | some (.model m) => do
      let fields ← m.entries.mapM fun (name, hint) => do
        return (name, ← Counted.record (hint.adapt none))
      return { DataType.dict ⟨fields⟩ with required := true, description }
  | some (.hint hint) => Counted.record (hint.adapt none)

end Response

namespace ClassDeclaration

/-- The source that a parameter of a class names. -/
def paramLocation (spec : Attributes) : Location :=
  match spec.location?.getD "path" with
  | "path" => .path
  | "body" => .body
  | "header" => .header
  | _ => .params

/-- The argument for a parameter in the documentation of a class. -/
def documentedArgument (name : String) (spec : Attributes) : Counted Argument := do
  let hint := spec.hint?.getD (.literal "str")
  let type ← Counted.record (hint.adapt (some spec))
  return { Argument.ofType name type with source := paramLocation spec }

/-- The arguments that all operations of a class have: those of its documentation, then those of
its namespace. -/
def sharedArguments (c : ClassDeclaration) : Counted (List Argument) := do
  let documented ← ((c.classDoc.map (·.params.entries)).getD []).mapM fun (name, spec) =>
    documentedArgument name spec
  let mounted := ((c.webNamespace.map (·.params.entries)).getD []).map fun (name, type) =>
    { Argument.ofType name type with source := .path }
  return documented ++ mounted

end ClassDeclaration

/-- A method in the class that it belongs to. -/
structure Method where
  owner : ClassDeclaration
  name : String
  member : Member

namespace Method

/-- The argument for a parameter that is described by attributes. -/
def attributesArgument (m : Method) (inBody : Bool) (name : String) (spec : Attributes) :
    Counted Argument := do
  let type ← Counted.record (TypeHint.adapt? (some spec) spec.hint?)
  if type.isVoid then throw (.untypedParameter m.owner.name m.name name)
  let source : Location :=
    if inBody then .body
    else if spec.location?.getD "params" == "params" then .params
    else .header
  return { Argument.ofType name type with
    default := spec.present? "default"
    description := (spec.text? "description").getD ""
    source }

/-- The argument for a parameter that is described by a field object; there is none when the field
has no meaning. -/
def fieldArgument? (inBody : Bool) (name : String) (f : WebField) : Counted (Option Argument) := do
  let type ← Counted.record ((TypeHint.field f).adapt (some f.attributes))
  if type.isVoid then return none
  return some { Argument.ofType name type with
    required := ((f.attributes.present? "required").map Json.truthy).getD true
    source := if inBody then .body else .params }

def describedArguments (m : Method) (inBody : Bool) (specs : OrderedMap ParameterSpec) :
    Counted (List Argument) := do
  let arguments ← specs.entries.mapM fun (name, spec) =>
    match spec with
    | .field f => fieldArgument? inBody name f
    | .attributes a => some <$> m.attributesArgument inBody name a
  return arguments.filterMap id

/-- What is wrong when a positional parameter has no hint. -/
def missingHints? (m : Method) : Option MissingHints :=
  let signature := m.member.signature
  let positional := signature.positional
  if signature.annotatedCount < positional.length then
    some {
      className := m.owner.name
      method := m.name
      positional := positional.length
      annotated := signature.annotatedCount
      missing := (positional.filter (·.hint.isNone)).map (·.name)
      parameters := positional.map (·.name) }
  else none

/-- The docstring, which is empty when there is none. -/
def doc (m : Method) : String :=
  m.member.doc.getD ""

/-- The argument for a parameter of the signature with a type. -/
def signatureArgument (m : Method) (name : String) (type : DataType) : Argument :=
  { Argument.ofType name type with
    description := (Docstring.param? m.doc name).getD ""
    default := (m.member.signature.defaultFor? name).filter (!·.isNull) }

/-- The arguments with those of the signature behind them.  A parameter is left out when its type
is void or when its name is taken, also when it is among `reserved`. -/
def signatureArguments (m : Method) (reserved : List String) (taken : List Argument) :
    List Parameter → Counted (List Argument)
  | [] => pure taken
  | p :: rest => do
      let type ← Counted.record (TypeHint.adapt? none p.hint)
      if type.isVoid || (taken.map (·.name)).contains p.name || reserved.contains p.name then
        m.signatureArguments reserved taken rest
      else
        m.signatureArguments reserved (taken ++ [m.signatureArgument p.name type]) rest

/-- The arguments of a documented method besides those of its class. -/
def documentedArguments (m : Method) (doc : MemberDoc) (shared : List Argument) :
    Counted (List Argument) := do
  if let some missing := m.missingHints? then throw (.missingHints missing)
  let params ← m.describedArguments false doc.params
  let expected ← doc.expect.mapM (m.describedArguments true)
  m.signatureArguments (shared.map (·.name)) (params ++ expected.flatten)
    m.member.signature.positional

/-- The operation with the answers for the status codes that are documented; a code that is no
number is passed over. -/
def withResponses (o : Operation) : List (String × Response) → Counted Operation
  | [] => pure o
  | (code, response) :: rest =>
      match statusCode? code with
      | none => withResponses o rest
      | some status => do withResponses (o.setResult status (← response.type)) rest

def documentedOperation (m : Method) (doc : MemberDoc) (shared : List Argument) :
    Counted Operation := do
  let own ← m.documentedArguments doc shared
  withResponses
    { Operation.named m.name with
      description := Docstring.summary m.doc, arguments := shared ++ own }
    doc.responses.entries

/-- The operation of a method whose types are stated directly. -/
def plainOperation (m : Method) (shared : List Argument) : Operation :=
  let fields := ((m.member.plainArguments.bind DataType.fields?).map (·.entries)).getD []
  let own := fields.map fun (name, type) =>
    { Argument.ofType name type with source := type.locationIn m.name }
  { Operation.named m.name with
    arguments := sortByName Argument.name (shared ++ own)
    result := m.member.plainResult.getD .void
    description := Docstring.summary m.doc }

/-- The operation of a method; documentation replaces types that are stated directly. -/
def operation (m : Method) (shared : List Argument) : Counted Operation :=
  match m.member.memberDoc with
  | some doc => m.documentedOperation doc shared
  | none => pure (m.plainOperation shared)

/-- The method is offered to callers. -/
def isPublic (m : Method) : Bool :=
  m.name.toList.head? != some '_' && m.member.kind.isCallable

end Method

namespace ClassDeclaration

def methods (c : ClassDeclaration) : List Method :=
  (c.members.entries.map fun (name, member) => ⟨c, name, member⟩).filter Method.isPublic

/-- The operations of a class in the order of their names. -/
def operations (c : ClassDeclaration) : Counted (List Operation) := do
  let shared ← c.sharedArguments
  return sortByName Operation.name (← c.methods.mapM (·.operation shared))

end ClassDeclaration

end ServiceGen

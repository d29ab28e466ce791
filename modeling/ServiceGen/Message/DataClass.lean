import ServiceGen.Message.Container
import ServiceGen.Source.Block
import ServiceGen.Source.Literal

/-!
The data classes for the containers of operations.  A class is named by the path of its container
and holds the fields that are sent; classes for nested containers come before those that refer to
them.  `DataClass.blocks` writes a class with its constructor and its conversions.
-/

namespace ServiceGen

structure DataClass where
  path : TypePath
  description : String
  fields : Fields

/-- What the classes of a module can be converted from and to: wire messages and dicts, or dicts
alone. -/
inductive ClassUse where
  | wire | definitions
deriving DecidableEq, Repr

/-- How a field is put into a wire message. -/
inductive Conversion where
  /-- Element by element; the elements themselves may need a conversion. -/
  | append (convertsElements : Bool)
  | merge
  | assign
deriving DecidableEq, Repr

/-- Where a field is read from. -/
inductive FieldSource where
  | wire | dict
deriving DecidableEq, Repr

namespace FieldSource

def method : FieldSource → String
  | wire => "from_pb2"
  | dict => "from_dict"

/-- The value of a field. -/
def value (name : String) : FieldSource → String
  | wire => "context." ++ name
  | dict => "context.get(\"" ++ name ++ "\")"

end FieldSource

namespace DataType

/-- How a field of the type is put into a wire message. -/
def conversion (t : DataType) : Option Conversion :=
  match t.kind with
  | .list element => some (.append element.isDict)
  | .dict _ => some .merge
  | .scalar _ | .enum .. => some .assign
  | .void => none

/-- The type of a field in a signature; dicts have classes of their own. -/
def fieldTypeName (path : TypePath) (name : String) (t : DataType) : String :=
  match t.kind with
  | .list element =>
      "typing.List["
        ++ (if element.isDict then (path.child name).className else element.typeName) ++ "]"
  | .dict _ => (path.child name).className
  | _ => t.typeName

end DataType

namespace DataClass

mutual

/-- The classes for the containers below named types. -/
def below (path : TypePath) : List (String × DataType) → List DataClass
  | [] => []
  | (name, t) :: rest => ofField (path.child name) t ++ below path rest

def ofField (path : TypePath) : DataType → List DataClass
  | { kind := .list element, .. } => ofElement path element
  | { kind := .dict ⟨fields⟩, description, .. } =>
      below path fields ++ [⟨path, description, OrderedMap.sent ⟨fields⟩⟩]
  | _ => []

def ofElement (path : TypePath) : DataType → List DataClass
  | { kind := .dict ⟨fields⟩, description, .. } =>
      below path fields ++ [⟨path, description, OrderedMap.sent ⟨fields⟩⟩]
  | _ => []

end

/-- The class for fields, behind those it refers to. -/
def ofFields (path : TypePath) (description : String) (fields : Fields) : List DataClass :=
  below path fields.sent.entries ++ [⟨path, description, fields.sent⟩]

/-- The classes for an operation: those for its arguments, then those for its result. -/
def ofOperation (service : String) (o : Operation) : List DataClass :=
  ofFields (.top service o.name .argument) o.description o.sentArguments
    ++ ofFields (.top service o.name .result) "" o.sentResult

def ofService (s : Service) : List DataClass :=
  s.operations.flatMap (ofOperation s.name)

/-- How each field is put into a wire message, in order. -/
def conversions (c : DataClass) : List (String × Conversion) :=
  c.fields.entries.filterMap fun (name, t) => t.conversion.map (name, ·)

/-- The lines about a field in the docstring: its name with the first line of its text, and the
others deeper. -/
def propertyBlocks (name : String) (t : DataType) : List Block :=
  let lines := Text.lines t.description
  [.line (Text.trimEnd (name ++ ": " ++ Text.trim (lines.head?.getD ""))),
    .nest ((lines.drop 1).map fun l => .line (Text.trim l))]

def docBlocks (c : DataClass) : List Block :=
  let lines := ((Text.lines c.description).map Text.trim).filter (!·.isEmpty)
  [.line "\"\"\""] ++ lines.map .line ++ [.blank]
    ++ (if c.fields.isEmpty then []
      else [.line "Properties:",
        .nest (c.fields.entries.flatMap fun (name, t) => propertyBlocks name t)])
    ++ [.line "\"\"\""]

def parameterBlock (path : TypePath) (name : String) (t : DataType) : Block :=
  let default := if t.isSingleValue then t.defaultLiteral else "None"
  .line (name ++ ": " ++ t.fieldTypeName path name ++ " = " ++ default ++ ",")

/-- The assignment of the constructor to a field. -/
def initialBlock (path : TypePath) (name : String) (t : DataType) : Block :=
  .line ("self." ++ name ++ " = " ++ name ++
    (match t.kind with
    | .list _ => " or []"
    | .dict _ => " or " ++ (path.child name).className ++ "()"
    | _ => ""))

def constructorBlocks (c : DataClass) : List Block :=
  [.line "def __init__(",
    .nest (.line "self," :: c.fields.entries.map fun (name, t) => parameterBlock c.path name t)]
  ++ Block.colon ")"
    (if c.fields.isEmpty then [.line "pass"]
    else c.fields.entries.map fun (name, t) => initialBlock c.path name t)

/-- The statements that put a field into a wire message. -/
def conversionBlocks (name : String) : Conversion → List Block
  | .append convertsElements =>
      Block.colon ("for item in self." ++ name)
        [.line ("result." ++ name ++ ".append("
          ++ (if convertsElements then "item.convert_pb2()" else "item") ++ ")")]
  | .merge =>
      [.line ("result." ++ name ++ ".MergeFrom(self." ++ name ++ ".convert_pb2())")]
  | .assign => [.line ("result." ++ name ++ " = self." ++ name)]

def newMessage (c : DataClass) : String :=
  "pb2." ++ c.path.wireName ++ "()"

/-- The method that makes a wire message. -/
def toWireBlocks (c : DataClass) : List Block :=
  Block.colon "def convert_pb2(self)"
    (if c.fields.isEmpty then [.line ("return " ++ c.newMessage)]
    else
      [.line ("result = " ++ c.newMessage)]
        ++ c.conversions.flatMap (fun (name, how) => conversionBlocks name how)
        ++ [.line "return result"])

/-- The header of a method that reads all fields. -/
def readHeader (source : FieldSource) : String :=
  "def " ++ source.method ++ "(self, context, allow_addition: bool = False)"

/-- The statements in front of reading from a dict. -/
def dictPreamble : List Block :=
  Block.colon "if context is None" [.line "context = \x7b\x7d"] ++ [.blank]
    ++ Block.colon "if allow_addition"
      (.line "# inject all items from dict to entity"
        :: Block.colon "for k, v in context.items()"
          (Block.colon "if hasattr(self, k)" [.line "continue"] ++ [.line "setattr(self, k, v)"]))
    ++ [.blank]

/-- The statements that read a field. -/
def readBlocks (path : TypePath) (source : FieldSource) (name : String) (t : DataType) :
    List Block :=
  let value := source.value name
  match t.kind with
  | .list element =>
      .line ("self." ++ name ++ " = []")
        :: Block.colon ("for item in " ++ value ++ " or []")
          (if element.isDict then
            [.line ("new_item = " ++ (path.child name).className ++ "()"),
              .line ("new_item." ++ source.method ++ "(item)"),
              .line ("self." ++ name ++ ".append(new_item)")]
          else [.line ("self." ++ name ++ ".append(item)")])
  | .dict _ => [.line ("self." ++ name ++ "." ++ source.method ++ "(" ++ value ++ ")")]
  | _ =>
      match t.default? with
      | some _ =>
          [.line ("self." ++ name ++ " = self.choose_default(" ++ value ++ ", "
            ++ t.defaultLiteral ++ ")")]
      | none => [.line ("self." ++ name ++ " = " ++ value)]

/-- The method that reads all fields from a source. -/
def fromSourceBlocks (c : DataClass) (source : FieldSource) : List Block :=
  Block.colon (readHeader source)
    (if c.fields.isEmpty then [.line "return None"]
    else
      (if source = .dict then dictPreamble else [])
        ++ c.fields.entries.flatMap fun (name, t) => readBlocks c.path source name t)

def blocks (use : ClassUse) (c : DataClass) : List Block :=
  Block.colon ("class " ++ c.path.className ++ "(RPCDict)")
    (c.docBlocks ++ c.constructorBlocks ++ [.blank]
      ++ (match use with
        | .wire => c.toWireBlocks ++ [.blank] ++ c.fromSourceBlocks .wire ++ [.blank]
        | .definitions => [])
      ++ c.fromSourceBlocks .dict)

/-- The blocks of the classes for a service, each with an empty line behind it. -/
def serviceBlocks (use : ClassUse) (s : Service) : List Block :=
  (ofService s).flatMap fun c => c.blocks use ++ [.blank]

end DataClass

end ServiceGen

import ServiceGen.Message.Container
import ServiceGen.Source.Block

/-!
The descriptor of a service for the protocol compiler: messages for the containers of its
operations, and the calls.  It is built as data (`Descriptor.ofService`) and then printed
(`Descriptor.render`).
-/

namespace ServiceGen

namespace Scalar

def wireName : Scalar → String
  | bool => "bool"
  | float => "float"
  | int => "int32"
  | string => "string"

/-- The scalar that a name on the wire stands for. -/
def ofWireName? : String → Option Scalar
  | "bool" => some bool
  | "float" | "double" => some float
  | "int32" | "int64" => some int
  | "string" => some string
  | _ => none

end Scalar

/-- The name of the wire scalar that carries values of a type. -/
def DataType.wireName? (t : DataType) : Option String :=
  t.scalarKind?.map Scalar.wireName

/-- A field of a message carries one value or any number of them. -/
inductive Multiplicity where
  | one | many
deriving DecidableEq, Repr

inductive WireType where
  | scalar (name : String)
  | message (name : String)
deriving DecidableEq, Repr

structure MessageField where
  multiplicity : Multiplicity
  type : WireType
  name : String
  number : Nat
deriving DecidableEq, Repr

/-- A message with items `I`, in the order in which they are written. -/
structure MessageOf (I : Type) where
  name : String
  items : List I

/-- An item of a message: a message inside of it, or a field. -/
inductive MessageItem where
  | message (m : MessageOf MessageItem)
  | field (f : MessageField)

abbrev Message := MessageOf MessageItem

namespace MessageItem

def field? : MessageItem → Option MessageField
  | field f => some f
  | message _ => none

def message? : MessageItem → Option Message
  | field _ => none
  | message m => some m

end MessageItem

namespace MessageOf

def fields (m : Message) : List MessageField :=
  m.items.filterMap MessageItem.field?

def nested (m : Message) : List Message :=
  m.items.filterMap MessageItem.message?

end MessageOf

/-- How a type is carried: the type of the field, and a message that it needs. -/
structure Encoding where
  type : WireType
  needs : Option Message

namespace Encoding

/-- A type that is carried as a scalar. -/
def ofScalar? (t : DataType) : Option Encoding :=
  t.wireName?.map fun name => ⟨.scalar name, none⟩

/-- A dict is carried by a message that is named for its field. -/
def ofItems (field : String) (items : List MessageItem) : Encoding :=
  let name := Naming.pretty field
  ⟨.message name, some ⟨name, items⟩⟩

/-- The items for a field, the message that it needs first; there are none for a type that cannot
be carried. -/
def place (multiplicity : Multiplicity) (name : String) (number : Nat) :
    Option Encoding → List MessageItem
  | none => []
  | some e =>
      (e.needs.map MessageItem.message).toList ++ [.field ⟨multiplicity, e.type, name, number⟩]

end Encoding

mutual

/-- The items of the message for named types, whose numbers follow `number`. -/
def messageItems (number : Nat) : List (String × DataType) → List MessageItem
  | [] => []
  | (name, t) :: rest =>
      if t.isVoid then messageItems number rest
      else fieldItems name (number + 1) t ++ messageItems (number + 1) rest

def fieldItems (name : String) (number : Nat) : DataType → List MessageItem
  | { kind := .list element, .. } =>
      Encoding.place .many name number (elementEncoding? name element)
  | { kind := .dict ⟨fields⟩, .. } =>
      Encoding.place .one name number (some (.ofItems name (messageItems 0 fields)))
  | { kind := .enum _ underlying _, .. } =>
      Encoding.place .one name number (Encoding.ofScalar? underlying)
  | { kind := .scalar s, .. } =>
      Encoding.place .one name number (some ⟨.scalar s.wireName, none⟩)
  | { kind := .void, .. } => []

/-- How the elements of a list are carried. -/
def elementEncoding? (name : String) : DataType → Option Encoding
  | { kind := .dict ⟨fields⟩, .. } => some (.ofItems name (messageItems 0 fields))
  | { kind := .enum _ underlying _, .. } => Encoding.ofScalar? underlying
  | { kind := .scalar s, .. } => some ⟨.scalar s.wireName, none⟩
  | _ => none

end

structure Call where
  name : String
  argument : String
  result : String
deriving DecidableEq, Repr

structure Descriptor where
  fileName : String
  service : String
  messages : List Message
  calls : List Call

namespace Descriptor

def message (name : String) (fields : Fields) : Message :=
  ⟨name, messageItems 0 fields.entries⟩

def argumentMessage (service : String) (o : Operation) : Message :=
  message (TypePath.top service o.name .argument).messageName o.sentArguments

def resultMessage (service : String) (o : Operation) : Message :=
  message (TypePath.top service o.name .result).messageName o.sentResult

def call (service : String) (o : Operation) : Call :=
  { name := o.name
    argument := (TypePath.top service o.name .argument).messageName
    result := (TypePath.top service o.name .result).messageName }

def ofService (s : Service) : Descriptor :=
  { fileName := Naming.fileStem s.name ++ ".proto"
    service := Naming.pretty s.name
    messages := s.operations.flatMap fun o => [argumentMessage s.name o, resultMessage s.name o]
    calls := s.operations.map (call s.name) }

end Descriptor

namespace MessageField

def render (f : MessageField) : String :=
  let type := match f.type with
    | .scalar name | .message name => name
  let label := match f.multiplicity with
    | .one => ""
    | .many => "repeated "
  label ++ type ++ " " ++ f.name ++ " = " ++ toString f.number ++ ";"

end MessageField

namespace MessageItem

mutual

def blocks : MessageItem → List Block
  | field f => [.line f.render]
  | message ⟨name, items⟩ => Block.brace ("message " ++ name) (blocksAll items)

def blocksAll : List MessageItem → List Block
  | [] => []
  | item :: rest => blocks item ++ blocksAll rest

end

end MessageItem

namespace Descriptor

def blocks (d : Descriptor) : List Block :=
  [.line "syntax = 'proto3';", .blank]
    ++ d.messages.flatMap (fun m => (MessageItem.message m).blocks ++ [.blank])
    ++ Block.brace ("service " ++ d.service)
      (d.calls.map fun c => .line
        ("rpc " ++ c.name ++ " (" ++ c.argument ++ ") returns (" ++ c.result ++ ") \x7b\x7d"))

def render (d : Descriptor) : String :=
  Block.render d.blocks

end Descriptor

end ServiceGen

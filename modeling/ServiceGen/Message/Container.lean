import ServiceGen.Naming
import ServiceGen.Schema.Service

/-!
The containers that carry the arguments and the results of operations: how they are named, and
what they hold.  A container is addressed by a path: the service, the operation, which of its two
containers, and the fields that lead to a container inside it.  Void is never sent, and a result
that is no dict is wrapped into a field of its own.
-/

namespace ServiceGen

inductive Container where
  | argument | result
deriving DecidableEq, Repr

/-- The part of a name that stands for a container. -/
def Container.word : Container → String
  | argument => "Arg"
  | result => "Result"

/-- The path of a container, made of names in the pretty form. -/
structure TypePath where
  service : String
  operation : String
  container : Container
  nested : List String
deriving DecidableEq, Repr

namespace TypePath

def top (service operation : String) (container : Container) : TypePath :=
  ⟨Naming.pretty service, Naming.pretty operation, container, []⟩

/-- The path of the container below a field. -/
def child (p : TypePath) (field : String) : TypePath :=
  { p with nested := p.nested ++ [Naming.pretty field] }

def className (p : TypePath) : String :=
  p.operation ++ p.container.word ++ "".intercalate p.nested

/-- The name of the message for the whole container of the operation. -/
def messageName (p : TypePath) : String :=
  p.service ++ p.operation ++ p.container.word

/-- The name of the message, qualified by the messages around it. -/
def wireName (p : TypePath) : String :=
  ".".intercalate (p.messageName :: p.nested)

/-- The name of the message inside of the message around it. -/
def localName (p : TypePath) : String :=
  p.nested.getLast?.getD p.messageName

end TypePath

/-- The name of the field that wraps a result. -/
def dataField : String := "data"

/-- The fields that are sent: all but the void ones. -/
def OrderedMap.sent (fields : Fields) : Fields :=
  fields.filter (!·.isVoid)

namespace Operation

def sentArguments (o : Operation) : Fields :=
  .ofList ((o.arguments.filter (!·.type.isVoid)).map fun a => (a.name, a.field))

def sentResult (o : Operation) : Fields :=
  match o.result.kind with
  | .void => .empty
  | .dict fields => fields.sent
  | _ => ⟨[(dataField, o.result)]⟩

end Operation

/-- A value of the type is sent as one scalar. -/
def DataType.isSingleValue (t : DataType) : Bool :=
  t.isScalar || t.isEnum

end ServiceGen

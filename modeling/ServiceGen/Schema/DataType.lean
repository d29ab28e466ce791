import ServiceGen.Json.Basic
import ServiceGen.Json.Record
import ServiceGen.Schema.Scalar

/-!
The types of a service description.  A type is void, a scalar, a list, a dict of named fields or an
enumeration of named members over another type, and carries notes: a text about it, whether it is
required, its default, where it is read from, its bounds, and the database column that holds it.
-/

namespace ServiceGen

/-- The column of a field.  An attribute that is not given is left to the database. -/
structure Column where
  primaryKey : Option Bool
  nullable : Option Bool
  unique : Option Bool
  index : Option Bool
  /-- The target of a foreign key, as `table.column`. -/
  foreign : Option String
  length : Option Nat
  /-- A type that is used instead of the one for the kind of the field. -/
  typeName : Option String
deriving DecidableEq, Repr

namespace Column

/-- The type of the column for a field of the given kind; a field that is no scalar is stored as
text. -/
def columnType (c : Column) (kind : Option Scalar) : String :=
  c.typeName.getD (kind.getD .string).columnType

/-- The target of the foreign key, unless it is empty. -/
def foreignTarget (c : Column) : Option String :=
  c.foreign.filter (!·.isEmpty)

/-- A flag that may be written as any value; `null` gives none. -/
def readFlag (p : Part) : Reading (Option Bool) := do
  let v ← p.readAny
  return if v.isNull then none else some v.truthy

def reader : RecordReader Part Column :=
  .mk <$> .optional "primary_key" readFlag none
    <*> .optional "nullable" readFlag none
    <*> .optional "unique" readFlag none
    <*> .optional "index" readFlag none
    <*> .optional "foreign" (Part.readOptional Part.readText) none
    <*> .optional "length" (Part.readOptional (Part.readNat (Nat.pow 2 32))) none
    <*> .optional "type_name" (Part.readOptional Part.readText) none

def ofJson : Part → Reading Column :=
  Part.readRecord reader

def toJson (c : Column) : Json :=
  .obj (member? "primary_key" .bool c.primaryKey ++ member? "nullable" .bool c.nullable
    ++ member? "unique" .bool c.unique ++ member? "index" .bool c.index
    ++ member? "foreign" .str c.foreign ++ member? "length" (fun n => .num (.int n)) c.length
    ++ member? "type_name" .str c.typeName)

end Column

open ServiceGen.Number

structure Constraints where
  minimum : Option Binary64
  maximum : Option Binary64
  minLength : Option Nat
  maxLength : Option Nat
  minItems : Option Nat
  maxItems : Option Nat
  mustTrue : Option Bool
  mustFalse : Option Bool
deriving DecidableEq, Repr

namespace Constraints

def none : Constraints :=
  ⟨.none, .none, .none, .none, .none, .none, .none, .none⟩

instance : Inhabited Constraints := ⟨none⟩

def isNone (c : Constraints) : Bool :=
  c == none

end Constraints

/-- The structure of a type whose parts are described by `T`. -/
inductive Kind (T : Type) where
  | void
  | scalar (kind : Scalar)
  | list (element : T)
  | dict (fields : OrderedMap T)
  | enum (name : Option String) (underlying : T) (members : OrderedMap T)

/-- A type with its notes. -/
structure DataType where
  kind : Kind DataType
  description : String
  required : Bool
  default : Option Json
  source : Location
  column : Option Column
  constraints : Constraints

/-- Named types, in order. -/
abbrev Fields := OrderedMap DataType

namespace DataType

/-- A type of some kind without notes. -/
def ofKind (kind : Kind DataType) : DataType :=
  { kind, description := "", required := false, default := none, source := .unknown,
    column := none, constraints := .none }

def void : DataType := ofKind .void

instance : Inhabited DataType := ⟨void⟩

def scalar (kind : Scalar) : DataType :=
  ofKind (.scalar kind)

def list (element : DataType) : DataType :=
  ofKind (.list element)

def dict (fields : Fields) : DataType :=
  ofKind (.dict fields)

def enumeration (name : Option String) (underlying : DataType) (members : Fields) : DataType :=
  ofKind (.enum name underlying members)

def isVoid (t : DataType) : Bool :=
  match t.kind with
  | .void => true
  | _ => false

def isScalar (t : DataType) : Bool :=
  match t.kind with
  | .scalar _ => true
  | _ => false

def isList (t : DataType) : Bool :=
  match t.kind with
  | .list _ => true
  | _ => false

def isDict (t : DataType) : Bool :=
  match t.kind with
  | .dict _ => true
  | _ => false

def isEnum (t : DataType) : Bool :=
  match t.kind with
  | .enum .. => true
  | _ => false

/-- The kind of a value of the type on the wire; an enumeration is sent as its underlying type. -/
def scalarKind? : DataType → Option Scalar
  | { kind := .scalar s, .. } => some s
  | { kind := .enum _ underlying _, .. } => underlying.scalarKind?
  | _ => none

def element? (t : DataType) : Option DataType :=
  match t.kind with
  | .list element => some element
  | _ => none

def fields? (t : DataType) : Option Fields :=
  match t.kind with
  | .dict fields => some fields
  | _ => none

def kindWord (t : DataType) : String :=
  match t.kind with
  | .void => "void"
  | .scalar s => s.word
  | .list _ => "list"
  | .dict _ => "dict"
  | .enum .. => "enum"

/-- The type is a dict with a field that has a column. -/
def hasColumns (t : DataType) : Bool :=
  match t.fields? with
  | some fields => fields.values.any (·.column.isSome)
  | none => false

end DataType

end ServiceGen

import ServiceGen.Json.Basic
import ServiceGen.Json.Record

/-!
The loose ways in which a declaration states a type: a word, a native type, a field object of the
web library, or anything else.  Every JSON value is a hint of one of these forms
(`TypeHint.ofJson` is total), and the first form that fits is taken.
-/

namespace ServiceGen

/-- Loosely typed attributes next to a hint. -/
abbrev Attributes := OrderedMap Json

namespace Attributes

/-- The value of an attribute that is there and not `null`. -/
def present? (a : Attributes) (key : String) : Option Json :=
  (a.get? key).filter (!·.isNull)

/-- The text of an attribute that is there and not `null`. -/
def text? (a : Attributes) (key : String) : Option String :=
  (a.present? key).map Json.toText

/-- The attributes that the members of an object stand for. -/
def ofMembers (members : List (String × Json)) : Attributes :=
  .ofList (members.map fun (name, value) => (name, value.collapse))

/-- Reads any object as attributes. -/
def ofJson (p : Part) : Reading Attributes := do
  match ← p.readWritten with
  | .obj members => return ofMembers members
  | _ => throw .mismatch

def toJson (a : Attributes) : Json :=
  .obj a.entries

end Attributes

/-- The native scalar types of a declaring program. -/
inductive NativeType where
  | bool | float | int | str
deriving DecidableEq, Repr

namespace NativeType

def word : NativeType → String
  | bool => "bool"
  | float => "float"
  | int => "int"
  | str => "str"

def ofJson : Part → Reading NativeType :=
  Part.readWord ([bool, float, int, str].map fun t => (t.word, t))

end NativeType

inductive FieldKind where
  | boolean | float | integer | list | nested | string | other
deriving DecidableEq, Repr

/-- The kind of field that a class name of the web library stands for. -/
def FieldKind.ofName : String → FieldKind
  | "Boolean" => boolean
  | "Float" => float
  | "Integer" => integer
  | "List" => list
  | "Nested" => nested
  | "String" => string
  | _ => other

/-- A field object of the web library, with hints `A` inside: lists have a container, nested
fields a model. -/
structure WebFieldOf (A : Type) where
  name : String
  container : Option A
  model : Option (OrderedMap A)
  attributes : Attributes

/-- A type as a declaration states it. -/
inductive TypeHint where
  | literal (word : String)
  | native (type : NativeType)
  | field (f : WebFieldOf TypeHint)
  | other (value : Json)

abbrev WebField := WebFieldOf TypeHint

def WebFieldOf.kind {A : Type} (f : WebFieldOf A) : FieldKind :=
  .ofName f.name

namespace TypeHint

/-- The attributes of a hint itself; only field objects have some. -/
def attributes? : TypeHint → Option Attributes
  | field f => some f.attributes
  | _ => none

/-- A value inside of a hint: as it is, read as a hint, or read as named ones. -/
structure Offer where
  value : Json
  hint : Unit → TypeHint
  model : Unit → Reading (OrderedMap TypeHint)

/-- The names that are no attributes of a field object. -/
def fieldNames : List String :=
  ["field", "container", "model"]

/-- The parts of a field object, around its attributes. -/
def fieldReader : RecordReader Offer (Attributes → WebField) :=
  (fun name container model attributes => { name, container, model, attributes })
    <$> .required "field" (Part.readText <| .ofJson ·.value)
    <*> .optional "container"
      (fun o => .ok (if o.value.isNull then none else some (o.hint ()))) none
    <*> .optional "model"
      (fun o => if o.value.isNull then .ok none else (o.model ()).map some) none

/-- The field object that is written in the members of an object. -/
def fieldOfOffers (offers : List (String × Offer)) : Reading WebField := do
  let around ← fieldReader.run (.named offers true)
  return around (.ofMembers (offers.filterMap fun (name, o) =>
    if fieldNames.contains name then none else some (name, o.value)))

/-- The native type that is written in the members of an object. -/
def nativeOfMembers (members : List (String × Json)) : Reading NativeType :=
  (RecordReader.required "builtin" fun v => NativeType.ofJson (.ofJson v)).run (.named members true)

mutual

def ofJson : Json → TypeHint
  | .str word => literal word
  | .obj members =>
      match nativeOfMembers members, fieldOfOffers (offersOf members) with
      | .ok type, _ => native type
      | .error _, .ok f => field f
      | .error _, .error _ => other (Json.obj members).collapse
  | v => other v.collapse

def modelOfJson : Json → Reading (OrderedMap TypeHint)
  | .obj members => (readEntries (fun o => .ok (o.hint ())) [] (offersOf members)).map
      OrderedMap.mk
  | _ => .error .mismatch

/-- What the values of members may be read as. -/
def offersOf : List (String × Json) → List (String × Offer)
  | [] => []
  | (name, value) :: rest =>
      (name, ⟨value, fun _ => ofJson value, fun _ => modelOfJson value⟩) :: offersOf rest

end

def fieldOfJson : Json → Reading WebField
  | .obj members => fieldOfOffers (offersOf members)
  | _ => .error .mismatch

mutual

def toJson : TypeHint → Json
  | literal word => .str word
  | native type => .obj [("builtin", .str type.word)]
  | field ⟨name, none, none, attributes⟩ => .obj (("field", .str name) :: attributes.entries)
  | field ⟨name, some container, none, attributes⟩ =>
      .obj ([("field", .str name), ("container", container.toJson)] ++ attributes.entries)
  | field ⟨name, none, some ⟨model⟩, attributes⟩ =>
      .obj ([("field", .str name), ("model", .obj (membersOf model))] ++ attributes.entries)
  | field ⟨name, some container, some ⟨model⟩, attributes⟩ =>
      .obj ([("field", .str name), ("container", container.toJson),
        ("model", .obj (membersOf model))] ++ attributes.entries)
  | other value => value

def membersOf : List (String × TypeHint) → List (String × Json)
  | [] => []
  | (name, a) :: rest => (name, a.toJson) :: membersOf rest

end

def fieldToJson (f : WebField) : Json :=
  (field f).toJson

def modelToJson (model : OrderedMap TypeHint) : Json :=
  .obj (membersOf model.entries)

end TypeHint

end ServiceGen

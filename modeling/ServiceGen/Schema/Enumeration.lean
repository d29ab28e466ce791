import ServiceGen.Schema.DataTypeJson

/-!
The enumerations of a set of services.  The same enumeration may be met more than once, with or
without a name; a collection of them keeps one representative of each, in the order in which they
were first met.
-/

namespace ServiceGen

/-- An enumeration type together with the variable and the module that export it; both are empty
for a type that is only met inside others. -/
structure ExportedEnum where
  variableName : String
  module : String
  type : DataType

namespace ExportedEnum

/-- The export of a type; an enumeration without a name takes that of the variable. -/
def ofType (variableName module : String) (type : DataType) : ExportedEnum :=
  let type := match type.kind with
    | .enum name underlying members =>
        if (name.getD "").isEmpty && !variableName.isEmpty then
          { type with kind := .enum (some variableName) underlying members }
        else type
    | _ => type
  { variableName, module, type }

/-- The name of the enumeration, unless it is empty. -/
def name? (e : ExportedEnum) : Option String :=
  match e.type.kind with
  | .enum name _ _ => name.filter (!·.isEmpty)
  | _ => none

def description (e : ExportedEnum) : String :=
  e.type.description

def members? (e : ExportedEnum) : Option Fields :=
  match e.type.kind with
  | .enum _ _ members => some members
  | _ => none

/-- The type of the members. -/
def underlying? (e : ExportedEnum) : Option DataType :=
  match e.type.kind with
  | .enum _ underlying _ => some underlying
  | _ => none

/-- Both have a name, and it is the same. -/
def sameName (e f : ExportedEnum) : Bool :=
  match e.name?, f.name? with
  | some a, some b => a == b
  | _, _ => false

/-- Both have the same text and the same names of members. -/
def sameContent (e f : ExportedEnum) : Bool :=
  match e.members?, f.members? with
  | some a, some b => e.description == f.description && a.keySet == b.keySet
  | _, _ => false

/-- Two exports denote the same enumeration: by their names, or by their content. -/
def same (e f : ExportedEnum) : Bool :=
  e.sameName f || e.sameContent f

/-- The representative of two exports of the same enumeration: the first, unless only the second
has a name. -/
def merge (e f : ExportedEnum) : ExportedEnum :=
  if e.name?.isNone && f.name?.isSome then f else e

def ofJson : Part → Reading ExportedEnum :=
  Part.readRecord
    (.mk <$> .required "var_name" Part.readText
      <*> .required "module_name" Part.readText
      <*> .required "enum_type" DataType.ofJson)

def toJson (e : ExportedEnum) : Json :=
  .obj [("var_name", .str e.variableName), ("module_name", .str e.module),
    ("enum_type", e.type.toJson)]

end ExportedEnum

/-- Two different enumerations of one name, with the modules that export them. -/
structure NameClash where
  name : String
  first : String
  second : String
deriving DecidableEq, Repr

/-- Enumerations in the order in which they were first met. -/
structure EnumSet where
  enums : List ExportedEnum

namespace EnumSet

def empty : EnumSet := ⟨[]⟩

/-- The enumerations with `e` merged into the first one that is the same, or put at the end. -/
def insertInto (e : ExportedEnum) : List ExportedEnum → List ExportedEnum
  | [] => [e]
  | f :: rest => if f.same e then f.merge e :: rest else f :: insertInto e rest

def insert (s : EnumSet) (e : ExportedEnum) : EnumSet :=
  ⟨insertInto e s.enums⟩

/-- The set with more enumerations, one after the other. -/
def extend (s : EnumSet) (es : List ExportedEnum) : EnumSet :=
  es.foldl insert s

/-- The first name that two enumerations have; `seen` are those before. -/
def clashIn? (seen : List ExportedEnum) : List ExportedEnum → Option NameClash
  | [] => none
  | e :: rest =>
      match e.name?, seen.find? (·.sameName e) with
      | some name, some first => some ⟨name, first.module, e.module⟩
      | _, _ => clashIn? (e :: seen) rest

/-- The first name that two of the enumerations have. -/
def clash? (s : EnumSet) : Option NameClash :=
  clashIn? [] s.enums

end EnumSet

end ServiceGen

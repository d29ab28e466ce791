import ServiceGen.Json.Numeral
import ServiceGen.Schema.DataTypeJson
import ServiceGen.SortedMap

/-!
The operations of a service: what they take, what they answer, and how both are written in JSON.
-/

namespace ServiceGen

structure Argument where
  name : String
  type : DataType
  default : Option Json
  description : String
  required : Bool
  source : Location

namespace Argument

/-- The argument whose notes are those of its type. -/
def ofType (name : String) (type : DataType) : Argument :=
  { name, type, default := type.default, description := type.description,
    required := type.required, source := type.source }

/-- The type of the argument with the argument's own notes in place of those of the type. -/
def field (a : Argument) : DataType :=
  { a.type with
    description := a.description, required := a.required, default := a.default, source := a.source }

def reader : RecordReader Part Argument :=
  .mk <$> .required "name" Part.readText
    <*> .required "arg_type" DataType.ofJson
    <*> .optional "default" (Part.readOptional Part.readAny) none
    <*> .optional "description" Part.readText ""
    <*> .optional "required" Part.readBool false
    <*> .optional "source" Location.ofJson .unknown

def ofJson : Part → Reading Argument :=
  Part.readRecord reader

def toJson (a : Argument) : Json :=
  .obj ([("name", .str a.name), ("arg_type", a.type.toJson)] ++ member? "default" id a.default
    ++ [("description", .str a.description), ("required", .bool a.required),
      ("source", a.source.toJson)])

end Argument

/-- One operation of a service.  Its answer may depend on the status code; `result` is the answer
that a caller gets in the ordinary case. -/
structure Operation where
  name : String
  arguments : List Argument
  result : DataType
  description : String
  results : SortedMap Nat DataType

namespace Operation

/-- An operation without arguments and answer. -/
def named (name : String) : Operation :=
  { name, arguments := [], result := .void, description := "", results := .empty }

/-- The ordinary answer among several: that of the lowest code from 200 to 299, or that of the
lowest code at all. -/
def primary? (results : SortedMap Nat DataType) : Option DataType :=
  match results.entries.find? fun (code, _) => 200 ≤ code && code < 300 with
  | some (_, type) => some type
  | none => results.values.head?

/-- The operation with the answer for a status code. -/
def setResult (o : Operation) (code : Nat) (type : DataType) : Operation :=
  let results := o.results.insert code type
  { o with results, result := (primary? results).getD o.result }

def argument? (o : Operation) (name : String) : Option Argument :=
  o.arguments.find? (·.name == name)

def argumentFields (o : Operation) : Fields :=
  .ofList (o.arguments.map fun a => (a.name, a.field))

def argumentsType (o : Operation) : DataType :=
  { DataType.dict o.argumentFields with description := o.description }

/-- Reads a status code that is written as the name of a member: an integer of sixteen bits,
without any escape in it. -/
def readCode (name : Json.Name) : Reading Nat :=
  match if name.plain then Numeral.ofText? name.text.toList else none with
  | some n => (Part.ofJson (.num n)).readNat (Nat.pow 2 16)
  | none => .error .mismatch

/-- Reads the answers for the status codes; of a code that comes twice the last answer counts. -/
def readResults (p : Part) : Reading (SortedMap Nat DataType) :=
  match p.tree with
  | .obj members complete => do
      let entries ← members.mapM fun (name, tree) => do
        return (← readCode name, ← DataType.ofJson ⟨tree, p.held⟩)
      Part.finish complete (.ofList entries)
  | _ => .error .mismatch

def reader : RecordReader Part Operation :=
  .mk <$> .required "name" Part.readText
    <*> .required "args" (Part.readList Argument.ofJson)
    <*> .required "result" DataType.ofJson
    <*> .optional "description" Part.readText ""
    <*> .optional "status_code_results" readResults .empty

def ofJson : Part → Reading Operation :=
  Part.readRecord reader

def toJson (o : Operation) : Json :=
  .obj [("name", .str o.name), ("args", .arr (o.arguments.map Argument.toJson)),
    ("result", o.result.toJson), ("description", .str o.description),
    ("status_code_results",
      .obj (o.results.entries.map fun (code, type) => (toString code, type.toJson)))]

end Operation

end ServiceGen

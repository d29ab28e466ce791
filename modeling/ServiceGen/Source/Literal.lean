import ServiceGen.Json.Basic
import ServiceGen.Schema.DataType

/-!
Values and types as they are written in generated code: literals of JSON values, the names of the
types of arguments, and their defaults.
-/

namespace ServiceGen

namespace Literal

/-- How a character is written inside a string literal. -/
def escapeChar (c : Char) : List Char :=
  if c = '\"' then ['\\', '\"']
  else if c = '\\' then ['\\', '\\']
  else if c = '\n' then ['\\', 'n']
  else if c = '\r' then ['\\', 'r']
  else if c = '\t' then ['\\', 't']
  else [c]

def quote (s : String) : String :=
  .ofList ('\"' :: (s.toList.flatMap escapeChar ++ ['\"']))

def truth (b : Bool) : String :=
  if b then "True" else "False"

mutual

def ofJson : Json → String
  | .null => "None"
  | .bool b => truth b
  | .num n => n.render
  | .str s => quote s
  | .arr items => "[" ++ ", ".intercalate (ofItems items) ++ "]"
  | .obj members => "\x7b" ++ ", ".intercalate (ofMembers members) ++ "\x7d"

def ofItems : List Json → List String
  | [] => []
  | item :: rest => ofJson item :: ofItems rest

def ofMembers : List (String × Json) → List String
  | [] => []
  | (name, value) :: rest => (quote name ++ ": " ++ ofJson value) :: ofMembers rest

end

end Literal

def Scalar.typeName : Scalar → String
  | bool => "bool"
  | float => "float"
  | int => "int"
  | string => "str"

namespace DataType

/-- The name of a type for which no class is generated. -/
def typeName (t : DataType) : String :=
  match t.kind with
  | .list _ => "list"
  | .dict _ => "dict"
  | _ => (t.scalarKind?.map Scalar.typeName).getD "bool"

/-- The default of a type, unless it is `null`. -/
def default? (t : DataType) : Option Json :=
  t.default.filter (!·.isNull)

/-- The value of a type that has no default. -/
def zeroLiteral (t : DataType) : String :=
  match t.kind with
  | .list _ | .dict _ => "None"
  | _ =>
      match t.scalarKind? with
      | some .string => "\"\""
      | some .int | some .float => "0"
      | some .bool | none => "False"

/-- The literal of the default of a type.  The default of a string is quoted whatever it is. -/
def defaultLiteral (t : DataType) : String :=
  match t.default? with
  | some value =>
      match t.scalarKind? with
      | some .string => Literal.quote value.toText
      | _ => Literal.ofJson value
  | none => t.zeroLiteral

end DataType

end ServiceGen

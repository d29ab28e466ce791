import ServiceGen.Json.Reading
import ServiceGen.Text.Case

/-!
The small vocabularies of a service description: the scalar kinds, the places of a request that an
argument is read from, and the kinds of database indexes.
-/

namespace ServiceGen

/-- The kinds of values without parts. -/
inductive Scalar where
  | bool | float | int | string
deriving DecidableEq, Repr

namespace Scalar

def word : Scalar → String
  | bool => "bool"
  | float => "float"
  | int => "int"
  | string => "string"

/-- The column type that holds values of a kind. -/
def columnType : Scalar → String
  | bool => "Boolean"
  | float => "Float"
  | int => "Integer"
  | string => "String"

end Scalar

/-- The part of a request that an argument is read from. -/
inductive Location where
  | body | header | params | path | unknown
deriving DecidableEq, Repr

instance : Inhabited Location := ⟨.unknown⟩

namespace Location

def word : Location → String
  | body => "body"
  | header => "header"
  | params => "params"
  | path => "path"
  | unknown => "unknown"

def all : List Location :=
  [body, header, params, path, unknown]

/-- The location that a word stands for, in whatever case it is written. -/
def ofWord? (word : String) : Option Location :=
  all.find? (·.word == Text.lowerCase word)

def ofJson : Part → Reading Location :=
  Part.readWord (all.map fun l => (l.word, l))

def toJson (l : Location) : Json :=
  .str l.word

end Location

inductive IndexKind where
  | btree | hash
deriving DecidableEq, Repr

instance : Inhabited IndexKind := ⟨.btree⟩

namespace IndexKind

def word : IndexKind → String
  | btree => "BTREE"
  | hash => "HASH"

/-- Reads a kind of index. -/
def ofJson : Part → Reading IndexKind :=
  Part.readWord ([btree, hash].map fun k => (k.word, k))

/-- Writes a kind of index. -/
def toJson (k : IndexKind) : Json :=
  .str k.word

end IndexKind

end ServiceGen

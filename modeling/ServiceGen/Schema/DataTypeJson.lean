import ServiceGen.Schema.DataType

/-!
How types are written in JSON.  A type is an object: `type` names the kind, and next to it stand
the parts of that kind and the notes.  Parts and notes are told apart by their names alone.
-/

namespace ServiceGen

open ServiceGen.Number

namespace Constraints

/-- The fields of a record of bounds. -/
def reader : RecordReader Part Constraints :=
  .mk <$> .optional "minimum" (Part.readOptional Part.readReal) Option.none
    <*> .optional "maximum" (Part.readOptional Part.readReal) Option.none
    <*> .optional "min_length" (Part.readOptional (Part.readNat (Nat.pow 2 64))) Option.none
    <*> .optional "max_length" (Part.readOptional (Part.readNat (Nat.pow 2 64))) Option.none
    <*> .optional "min_items" (Part.readOptional (Part.readNat (Nat.pow 2 64))) Option.none
    <*> .optional "max_items" (Part.readOptional (Part.readNat (Nat.pow 2 64))) Option.none
    <*> .optional "must_true" (Part.readOptional Part.readBool) Option.none
    <*> .optional "must_false" (Part.readOptional Part.readBool) Option.none

def ofJson : Part → Reading Constraints :=
  Part.readRecord reader

def toJson (c : Constraints) : Json :=
  let real (x : Binary64) : Json := .num (.real x)
  let nat (n : Nat) : Json := .num (.int n)
  .obj (member? "minimum" real c.minimum ++ member? "maximum" real c.maximum
    ++ member? "min_length" nat c.minLength ++ member? "max_length" nat c.maxLength
    ++ member? "min_items" nat c.minItems ++ member? "max_items" nat c.maxItems
    ++ member? "must_true" .bool c.mustTrue ++ member? "must_false" .bool c.mustFalse)

end Constraints

/-- The tag of a variant: the word for it, or its number in the list of words. -/
def Part.readTag (words : List String) (p : Part) : Reading String :=
  match p.tree with
  | .str word => if words.contains word then .ok word else .error .mismatch
  | .num (.int i) =>
      match if 0 ≤ i then words[i.toNat]? else none with
      | some word => .ok word
      | none => .error .mismatch
  | _ => .error .mismatch

namespace DataType

/-- The words for the kinds, in the order in which they are numbered. -/
def kindWords : List String :=
  ["void", "bool", "int", "float", "string", "list", "dict", "enum"]

/-- What is offered for a component of the kind or for a note: as it is, read as a type, or read as
named types. -/
structure Offer where
  part : Part
  type : Unit → Reading DataType
  fields : Unit → Reading Fields

def noteNames : List String :=
  ["description", "required", "default", "source", "column", "constraints"]

/-- The notes of a type, around its kind. -/
def notesReader : RecordReader Offer (Kind DataType → DataType) :=
  (fun description required default source column constraints kind =>
      { kind, description, required, default, source, column, constraints })
    <$> .optional "description" (·.part.readText) ""
    <*> .optional "required" (·.part.readBool) false
    <*> .optional "default" (·.part.readOptional Part.readAny) none
    <*> .optional "source" (Location.ofJson ·.part) .unknown
    <*> .optional "column" (·.part.readOptional Column.ofJson) none
    <*> .optional "constraints" (Constraints.ofJson ·.part) .none

/-- The components that go with the word for a kind. -/
def kindReader (word : String) : RecordReader Offer (Kind DataType) :=
  match word with
  | "bool" => pure (.scalar .bool)
  | "int" => pure (.scalar .int)
  | "float" => pure (.scalar .float)
  | "string" => pure (.scalar .string)
  | "list" => .list <$> .required "elem" (·.type ())
  | "dict" => .dict <$> .optional "fields" (·.fields ()) .empty
  | "enum" =>
      .enum <$> .optional "name" (·.part.readOptional Part.readText) none
        <*> .required "underlying" (·.type ())
        <*> .required "members" (·.fields ())
  | _ => pure .void

/-- The kind that is written in the members that are no notes. -/
def readKind (offers : List (String × Offer)) : Reading (Kind DataType) :=
  match Record.occurrences "type" offers with
  | [(_, tag)] => do
      let word ← tag.part.readTag kindWords
      (kindReader word).run (.named (offers.filter (·.1 != "type")) true)
  | _ => .error .mismatch

/-- The type that is written in the members of an object.  The notes are read first; what is no note
is taken in as a whole before the kind is read from it. -/
def ofOffers (offers : List (String × Offer)) (complete : Bool) : Reading DataType := do
  let note ← notesReader.run (.named offers complete)
  let others := offers.filter fun (name, _) => !noteNames.contains name
  others.forM fun (_, o) => do discard o.part.hold
  return note (← readKind others)

mutual

/-- Reads a type; `held` tells whether it has been taken in before. -/
def ofTree (held : Bool) : Json.Tree → Reading DataType
  | .obj members complete => ofOffers (offersOf held members) complete
  | _ => .error .mismatch

/-- Reads named types. -/
def fieldsOfTree (held : Bool) : Json.Tree → Reading Fields
  | .obj members complete => do
      Part.finish complete
        ⟨← readEntries (fun o => o.type ()) [] (entriesOf held members)⟩
  | _ => .error .mismatch

/-- What the members of a type may be read as.  The components of its kind are read when they have
been taken in. -/
def offersOf (held : Bool) : List (Json.Name × Json.Tree) → List (String × Offer)
  | [] => []
  | (name, tree) :: rest =>
      (name.text, ⟨⟨tree, held⟩, fun _ => ofTree true tree, fun _ => fieldsOfTree true tree⟩)
        :: offersOf held rest

/-- What the members of named types may be read as. -/
def entriesOf (held : Bool) : List (Json.Name × Json.Tree) → List (String × Offer)
  | [] => []
  | (name, tree) :: rest =>
      (name.text, ⟨⟨tree, held⟩, fun _ => ofTree held tree, fun _ => fieldsOfTree held tree⟩)
        :: entriesOf held rest

end

def ofJson (p : Part) : Reading DataType :=
  ofTree p.held p.tree

/-- Reads named types. -/
def fieldsOfJson (p : Part) : Reading Fields :=
  fieldsOfTree p.held p.tree

/-- The members for the notes, without those that say nothing. -/
def noteMembers (t : DataType) : List (String × Json) :=
  (if t.description.isEmpty then [] else [("description", .str t.description)])
    ++ (if t.required then [("required", .bool true)] else [])
    ++ member? "default" id t.default
    ++ (if t.source = .unknown then [] else [("source", t.source.toJson)])
    ++ member? "column" Column.toJson t.column
    ++ (if t.constraints.isNone then [] else [("constraints", t.constraints.toJson)])

mutual

def kindMembers : DataType → List (String × Json)
  | { kind := .void, .. } => [("type", .str "void")]
  | { kind := .scalar s, .. } => [("type", .str s.word)]
  | { kind := .list element, .. } =>
      [("type", .str "list"), ("elem", .obj (kindMembers element ++ noteMembers element))]
  | { kind := .dict ⟨fields⟩, .. } =>
      [("type", .str "dict"), ("fields", .obj (fieldMembers fields))]
  | { kind := .enum name underlying ⟨members⟩, .. } =>
      ("type", .str "enum") :: member? "name" .str name
        ++ [("underlying", .obj (kindMembers underlying ++ noteMembers underlying)),
          ("members", .obj (fieldMembers members))]

def fieldMembers : List (String × DataType) → List (String × Json)
  | [] => []
  | (name, t) :: rest => (name, .obj (kindMembers t ++ noteMembers t)) :: fieldMembers rest

end

def toJson (t : DataType) : Json :=
  .obj (t.kindMembers ++ t.noteMembers)

/-- Writes named types. -/
def fieldsToJson (fields : Fields) : Json :=
  .obj (fieldMembers fields.entries)

end DataType

end ServiceGen

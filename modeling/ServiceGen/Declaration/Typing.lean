import ServiceGen.Declaration.TypeHint
import ServiceGen.Schema.DataType

/-!
From type hints to types.  A hint selects the notes that its type can have, attributes fill them
in, and what no rule understands becomes void.  Nothing is lost silently: `Degradations` counts
every hint that became void and every list that was dropped because its element did.
-/

namespace ServiceGen

/-- How often a hint lost its meaning. -/
structure Degradations where
  /-- Hints that no rule understands. -/
  voidFallbacks : Nat
  /-- Lists that were dropped because their element became void. -/
  voidElements : Nat
deriving DecidableEq, Repr

namespace Degradations

def none : Degradations := ⟨0, 0⟩

instance : Add Degradations :=
  ⟨fun a b => ⟨a.voidFallbacks + b.voidFallbacks, a.voidElements + b.voidElements⟩⟩

end Degradations

/-- A note that an attribute can fill in. -/
inductive NoteSlot where
  | description | default | required | minimum | maximum | minLength | maxLength | minItems
  | maxItems | mustTrue | mustFalse
deriving DecidableEq, Repr

namespace NoteSlot

/-- The names of the attributes for a note, the one that counts first in front. -/
def keys : NoteSlot → List String
  | description => ["description"]
  | default => ["default_value", "default"]
  | required => ["required"]
  | minimum => ["minimum", "min"]
  | maximum => ["maximum", "max"]
  | minLength => ["min_length"]
  | maxLength => ["max_length"]
  | minItems => ["min_items"]
  | maxItems => ["max_items"]
  | mustTrue => ["must_true"]
  | mustFalse => ["must_false"]

/-- The first attribute for a note that is there and not `null`. -/
def value? (slot : NoteSlot) (a : Attributes) : Option Json :=
  slot.keys.findSome? a.present?

/-- The type with a note filled in; a value that does not fit into a bound leaves it open. -/
def fill (slot : NoteSlot) (value : Json) (t : DataType) : DataType :=
  match slot with
  | description => { t with description := value.toText }
  | default => { t with default := some value }
  | required => { t with required := value.truthy }
  | minimum => { t with constraints := { t.constraints with minimum := value.real? } }
  | maximum => { t with constraints := { t.constraints with maximum := value.real? } }
  | minLength => { t with constraints := { t.constraints with minLength := value.nat? } }
  | maxLength => { t with constraints := { t.constraints with maxLength := value.nat? } }
  | minItems => { t with constraints := { t.constraints with minItems := value.nat? } }
  | maxItems => { t with constraints := { t.constraints with maxItems := value.nat? } }
  | mustTrue => { t with constraints := { t.constraints with mustTrue := some value.truthy } }
  | mustFalse => { t with constraints := { t.constraints with mustFalse := some value.truthy } }

end NoteSlot

/-- The sets of notes that a type can have. -/
inductive NoteSet where
  | number | text | flag | list
deriving DecidableEq, Repr

namespace NoteSet

def slots : NoteSet → List NoteSlot
  | number => [.description, .default, .required, .minimum, .maximum]
  | text => [.description, .default, .required, .minLength, .maxLength]
  | flag => [.description, .default, .required, .mustTrue, .mustFalse]
  | list => [.description, .minItems, .maxItems]

def ofWord : String → NoteSet
  | "int" | "integer" | "float" => number
  | "bool" => flag
  | "list" => list
  | _ => text

/-- The type with the notes of a set filled in from attributes.  Where the set knows about it, a
type is required unless an attribute denies it. -/
def apply (set : NoteSet) (attributes : Option Attributes) (t : DataType) : DataType :=
  set.slots.foldl
    (fun t slot =>
      match attributes.bind slot.value? with
      | some value => slot.fill value t
      | none => t)
    { t with required := set.slots.contains .required }

end NoteSet

def NativeType.scalar : NativeType → Scalar
  | bool => .bool
  | float => .float
  | int => .int
  | str => .string

def NativeType.notes : NativeType → NoteSet
  | bool => .flag
  | float | int => .number
  | str => .text

namespace TypeHint

/-- What a hint without meaning becomes. -/
def fallback : DataType × Degradations :=
  (.void, ⟨1, 0⟩)

/-- An attribute that says whether a type is required wins, but void never is. -/
def override (attributes : Option Attributes) (t : DataType) : DataType :=
  match attributes.bind (·.present? "required") with
  | some required => if t.isVoid then t else { t with required := required.truthy }
  | none => t

/-- The scalar type that a word stands for: a number for the two words for integers, else a
string. -/
def wordType (word : String) : DataType :=
  .scalar (if word == "int" || word == "integer" then .int else .string)

mutual

/-- The type that a hint stands for, with attributes that fill in its notes. -/
def adapt (attributes : Option Attributes) : TypeHint → DataType × Degradations
  | literal word =>
      (override attributes ((NoteSet.ofWord word).apply attributes (wordType word)), .none)
  | native type =>
      (override attributes (type.notes.apply attributes (.scalar type.scalar)), .none)
  | field f =>
      let (t, d) := adaptField attributes f
      (override attributes t, d)
  | other _ => fallback

/-- The type that a field object stands for. -/
def adaptField (attributes : Option Attributes) :
    WebFieldOf TypeHint → DataType × Degradations
  | ⟨name, container, model, own⟩ =>
      match FieldKind.ofName name with
      | .integer => (NoteSet.number.apply attributes (.scalar .int), .none)
      | .float => (NoteSet.number.apply attributes (.scalar .float), .none)
      | .boolean => (NoteSet.flag.apply attributes (.scalar .bool), .none)
      | .string => (NoteSet.text.apply attributes (.scalar .string), .none)
      | .list =>
          let (element, d) := adaptContainer container
          if element.isVoid then (.void, d + ⟨0, 1⟩)
          else (NoteSet.list.apply attributes (.list element), d)
      | .nested =>
          let (fields, d) := adaptModel model
          ({ DataType.dict ⟨fields⟩ with
            description := (own.text? "description").getD ""
            required := ((own.present? "required").map Json.truthy).getD false }, d)
      | .other => fallback

/-- The type of the elements of a list. -/
def adaptContainer : Option TypeHint → DataType × Degradations
  | none => fallback
  | some hint => adapt none hint

/-- The types of the fields of a nested field object, each with its own attributes. -/
def adaptModel : Option (OrderedMap TypeHint) → List (String × DataType) × Degradations
  | none => ([], .none)
  | some ⟨entries⟩ => adaptEntries entries

/-- The types of named hints, each with its own attributes. -/
def adaptEntries : List (String × TypeHint) → List (String × DataType) × Degradations
  | [] => ([], .none)
  | (name, hint) :: rest =>
      let (t, d) := adapt hint.attributes? hint
      let (fields, ds) := adaptEntries rest
      ((name, t) :: fields, d + ds)

end

/-- The type of a hint that may be missing. -/
def adapt? (attributes : Option Attributes) : Option TypeHint → DataType × Degradations
  | none => fallback
  | some hint => adapt attributes hint

end TypeHint

end ServiceGen

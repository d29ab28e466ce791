import ServiceGen.Json.Tree

/-!
Reading typed data out of JSON: single values, lists, maps with unique names, and words out of a
fixed vocabulary.  The entries of a map keep their order.  Parts are read in the order in which
they are written, and the first complaint is the one that is made.
-/

namespace ServiceGen

open ServiceGen.Number

universe u

/-- Why a part cannot be read: a map has a name twice, or the part has not the expected shape. -/
inductive ReadError where
  | duplicateField (name : String)
  | mismatch
deriving DecidableEq, Repr

/-- What reading gives. -/
abbrev Reading (α : Type) := Except ReadError α

/-- A part of a text that is offered to a reader.  A part is held when it has been taken in as a
whole before it is read. -/
structure Part where
  tree : Json.Tree
  held : Bool

namespace Part

/-- A value that is offered to a reader. -/
def ofJson (v : Json) : Part :=
  ⟨.ofJson v, false⟩

def members (held : Bool) (members : List (Json.Name × Json.Tree)) : List (String × Part) :=
  members.map fun (name, tree) => (name.text, ⟨tree, held⟩)

/-- The value as it is written, names that are repeated included. -/
def readWritten (p : Part) : Reading Json :=
  match p.tree.value? with
  | some v => .ok v
  | none => .error .mismatch

/-- The part, taken in as a whole. -/
def hold (p : Part) : Reading Part :=
  if p.held then .ok p else p.readWritten.map fun _ => { p with held := true }

/-- Any value, with the repeated names of its objects collapsed. -/
def readAny (p : Part) : Reading Json :=
  p.readWritten.map Json.collapse

def readText (p : Part) : Reading String :=
  match p.tree with
  | .str s => .ok s
  | _ => .error .mismatch

def readBool (p : Part) : Reading Bool :=
  match p.tree with
  | .bool b => .ok b
  | _ => .error .mismatch

/-- A natural number below `bound`, written as an integer. -/
def readNat (bound : Nat) (p : Part) : Reading Nat :=
  match p.tree with
  | .num (.int i) => if 0 ≤ i ∧ i.toNat < bound then .ok i.toNat else .error .mismatch
  | _ => .error .mismatch

def readReal (p : Part) : Reading Binary64 :=
  match p.tree with
  | .num n => .ok n.toBinary64
  | _ => .error .mismatch

/-- A part that may be `null`. -/
def readOptional {α : Type} (read : Part → Reading α) (p : Part) : Reading (Option α) :=
  match p.tree with
  | .null => .ok none
  | _ => (read p).map some

/-- Passes what has been read on when nothing behind it is wrong. -/
def finish {α : Type} (complete : Bool) (a : α) : Reading α :=
  if complete then .ok a else .error .mismatch

def readList {α : Type} (read : Part → Reading α) (p : Part) : Reading (List α) :=
  match p.tree with
  | .arr items complete => do finish complete (← items.mapM fun item => read ⟨item, p.held⟩)
  | _ => .error .mismatch

/-- A word out of a vocabulary with the values that the words stand for.  A word may also be
written as an object with the word as its only name and `null` under it; in a part that is held an
empty object is as good as `null` there. -/
def readWord {α : Type} (words : List (String × α)) (p : Part) : Reading α :=
  let word : Option String :=
    match p.tree with
    | .str word | .obj [(⟨word, _⟩, .null)] true => some word
    | .obj [(⟨word, _⟩, .obj [] true)] true => if p.held then some word else none
    | _ => none
  match word.bind (words.lookup ·) with
  | some a => .ok a
  | none => .error .mismatch

end Part

/-- The entries of a map, read in order; `seen` are the names before them.  A name that comes again
is refused after its value has been read. -/
def readEntries {P : Type u} {α : Type} (read : P → Reading α) (seen : List String) :
    List (String × P) → Reading (List (String × α))
  | [] => .ok []
  | (name, offered) :: rest =>
      match read offered with
      | .error e => .error e
      | .ok value =>
          if name ∈ seen then .error (.duplicateField name)
          else (readEntries read (name :: seen) rest).map ((name, value) :: ·)

namespace Part

def readMap {α : Type} (read : Part → Reading α) (p : Part) : Reading (OrderedMap α) :=
  match p.tree with
  | .obj ms complete => do finish complete ⟨← readEntries read [] (members p.held ms)⟩
  | _ => .error .mismatch

/-- Members of a map whose repeated names are allowed: every value has to be readable. -/
def readMembers {α : Type} (read : Part → Reading α) (p : Part) : Reading (List (String × α)) :=
  match p.tree with
  | .obj ms complete => do
      finish complete (← (members p.held ms).mapM fun (name, q) => (read q).map (name, ·))
  | _ => .error .mismatch

end Part

/-- What a text is read as.  Nothing may be wrong behind the part that is read. -/
def Json.Draft.read {α : Type} (read : Part → Reading α) (d : Json.Draft) : Reading α := do
  Part.finish d.complete (← read ⟨d.tree, false⟩)

end ServiceGen

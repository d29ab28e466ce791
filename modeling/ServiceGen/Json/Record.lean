import ServiceGen.Json.Reading

/-!
Reading records.  A record is written as an object, whose members stand in any order, or as an
array of its fields in their order.  A `RecordReader` reads the fields independently of each other;
when several cannot be read, the complaint is about the one that is written first.  Members that no
field asks for are not looked at.
-/

namespace ServiceGen

universe u

/-- What is written for a record: members with a name, or items in the order of the fields.  It is
complete unless something behind them cannot be read. -/
inductive Record (P : Type u) where
  | named (members : List (String × P)) (complete : Bool)
  | positional (items : List P) (complete : Bool)

/-- A complaint about the part of a record that is written at `place`. -/
structure Fault where
  place : Nat
  error : ReadError

namespace Record

variable {P : Type u} {α : Type}

/-- The number of parts that are written. -/
def size : Record P → Nat
  | named members _ => members.length
  | positional items _ => items.length

/-- The members with a name, each with its place. -/
def occurrences (name : String) (members : List (String × P)) : List (Nat × P) :=
  members.zipIdx.filterMap fun ((n, offered), place) =>
    if n = name then some (place, offered) else none

/-- What is offered for the field `name`, the one at `index`: nothing, or one part with its place.
A name that is written twice is a fault at its second place, unless the first part is one. -/
def field (r : Record P) (index : Nat) (name : String) (read : P → Reading α)
    (missing : Except Fault α) : Except Fault α :=
  match r with
  | named members _ =>
      match occurrences name members with
      | [] => missing
      | (place, offered) :: others =>
          match read offered, others with
          | .error e, _ => .error ⟨place, e⟩
          | .ok a, [] => .ok a
          | .ok _, (again, _) :: _ => .error ⟨again, .mismatch⟩
  | positional items _ =>
      match items[index]? with
      | none => missing
      | some offered => (read offered).mapError (⟨index, ·⟩)

end Record

/-- A way to read some fields of a record, which are `width` many and in a row. -/
structure RecordReader (P : Type u) (α : Type) where
  width : Nat
  read : Record P → (index : Nat) → Except Fault α

namespace RecordReader

variable {P : Type u} {α β : Type}

/-- A field that has to be there. -/
def required (name : String) (read : P → Reading α) : RecordReader P α :=
  ⟨1, fun r index => r.field index name read (.error ⟨r.size, .mismatch⟩)⟩

/-- A field that has the value `missing` when it is not there. -/
def optional (name : String) (read : P → Reading α) (missing : α) : RecordReader P α :=
  ⟨1, fun r index => r.field index name read (.ok missing)⟩

/-- The results of two readings; of two faults the earlier one. -/
def both : Except Fault (α → β) → Except Fault α → Except Fault β
  | .ok f, .ok a => .ok (f a)
  | .ok _, .error e => .error e
  | .error e, .ok _ => .error e
  | .error e, .error e' => .error (if e'.place < e.place then e' else e)

instance : Applicative (RecordReader P) where
  pure a := ⟨0, fun _ _ => .ok a⟩
  seq f x :=
    ⟨f.width + (x ()).width,
      fun r index => both (f.read r index) ((x ()).read r (index + f.width))⟩

/-- The record; it has to be complete, and an array must not have more items than there are
fields. -/
def run (reader : RecordReader P α) (r : Record P) : Reading α :=
  match reader.read r 0 with
  | .error fault => .error fault.error
  | .ok a =>
      match r with
      | .named _ complete => Part.finish complete a
      | .positional items complete =>
          Part.finish (complete && items.length ≤ reader.width) a

end RecordReader

/-- A record, written either way. -/
def Part.readRecord {α : Type} (reader : RecordReader Part α) (p : Part) : Reading α :=
  match p.tree with
  | .obj members complete => reader.run (.named (Part.members p.held members) complete)
  | .arr items complete => reader.run (.positional (items.map (⟨·, p.held⟩)) complete)
  | _ => .error .mismatch

/-- A member of a written record that is left out when there is no value. -/
def member? {α : Type} (name : String) (write : α → Json) : Option α → List (String × Json)
  | none => []
  | some a => [(name, write a)]

end ServiceGen

import ServiceGen.Toml.Value

/-!
Settings documents in TOML.  A document assigns values to names, directly or in sections; a section
is opened by a header, or filled from outside by dotted names.  No section is opened twice, and no
name is assigned twice.
-/

namespace ServiceGen.Toml

/-- A section: its entries, and whether it is filled by dotted names. -/
structure Section where
  name : String
  entries : List (String × Value)
  dotted : Bool

/-- What has been read of a document: names with values, sections, and the name of the section that
is open. -/
structure Document where
  values : List (String × Value)
  sections : List Section
  current : Option String

namespace Document

def empty : Document := ⟨[], [], none⟩

/-- The name stands for something. -/
def knows (d : Document) (name : String) : Bool :=
  (d.values.map (·.1)).contains name || (d.sections.map (·.name)).contains name

def openSection? (d : Document) (name : String) : Option Document :=
  if d.knows name then none
  else some { d with sections := d.sections ++ [⟨name, [], false⟩], current := some name }

/-- The section with an entry; `none` when its name is taken. -/
def Section.add? (s : Section) (name : String) (v : Value) : Option Section :=
  if (s.entries.map (·.1)).contains name then none
  else some { s with entries := s.entries ++ [(name, v)] }

/-- The document with an entry in a section. -/
def addTo? (d : Document) (owner name : String) (v : Value) : Option Document := do
  let sections ← d.sections.mapM fun s =>
    if s.name == owner then Section.add? s name v else some s
  return { d with sections }

/-- The document with a value assigned to a name of one or two parts. -/
def assign? (d : Document) (keys : List String) (v : Value) : Option Document :=
  match d.current, keys with
  | some owner, [name] => d.addTo? owner name v
  | none, [name] =>
      if d.knows name then none else some { d with values := d.values ++ [(name, v)] }
  | none, [owner, name] =>
      if d.sections.any fun s => s.name == owner && s.dotted then d.addTo? owner name v
      else if d.knows owner then none
      else some { d with sections := d.sections ++ [⟨owner, [(name, v)], true⟩] }
  | _, _ => none

/-- The document with the statement that begins a text, and what follows it. -/
def statement? (d : Document) (cs : List Char) : Option (Document × List Char) :=
  match cs with
  | '[' :: rest => do
      match ← keys? 1 rest with
      | ([name], ']' :: rest) => return (← d.openSection? name, ← endLine? false rest)
      | _ => none
  | cs => do
      match ← keys? 2 cs with
      | (names, '=' :: rest) =>
          let (v, rest) ← value? (rest.length + 1) maxNesting (skipBlanks rest)
          return (← d.assign? names v, ← endLine? false rest)
      | _ => none

/-- The document with the statements of a text, of which there are less than `count`. -/
def statements? (d : Document) : (count : Nat) → List Char → Option Document
  | 0, _ => none
  | count + 1, cs => do
      match ← skipLayout? false cs with
      | [] => return d
      | cs =>
          let (d, rest) ← d.statement? cs
          statements? d count rest

def entries (d : Document) : List (String × Value) :=
  d.values ++ d.sections.map fun s => (s.name, .table (s.entries.map fun (name, v) => ([name], v)))

/-- Reads a document; a byte order mark in front is passed over. -/
def parse? (text : String) : Option Document :=
  let cs := match text.toList with
    | '\ufeff' :: cs => cs
    | cs => cs
  statements? empty (cs.length + 1) cs

end Document

end ServiceGen.Toml

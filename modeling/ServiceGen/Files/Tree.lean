import ServiceGen.Failure
import ServiceGen.Files.Path

/-!
A tree of files.  Every directory and every file is an entry under the names that lead to it; the
root is always there.  The operations refuse what an operating system refuses, and for the same
reason.
-/

namespace ServiceGen

/-- What a file holds: a text, or bytes that are none. -/
inductive Content where
  | text (s : String)
  | binary (bytes : List UInt8)
deriving DecidableEq, Repr

def Content.ofBytes (bytes : List UInt8) : Content :=
  match String.fromUTF8? ⟨bytes.toArray⟩ with
  | some s => text s
  | none => binary bytes

/-- What a name stands for. -/
inductive Entry where
  | directory
  | file (content : Content)
deriving DecidableEq, Repr

/-- The entries below the root. -/
structure FileTree where
  entries : List (List String × Entry)
deriving DecidableEq, Repr

namespace FileTree

/-- The tree with nothing but the root. -/
def empty : FileTree := ⟨[]⟩

def get? (t : FileTree) (place : List String) : Option Entry :=
  if place.isEmpty then some .directory else t.entries.lookup place

def put (t : FileTree) (place : List String) (e : Entry) : FileTree :=
  ⟨putEntry t.entries⟩
where
  /-- The entries with one replaced or added. -/
  putEntry : List (List String × Entry) → List (List String × Entry)
    | [] => [(place, e)]
    | (p, old) :: rest => if p = place then (place, e) :: rest else (p, old) :: putEntry rest

theorem lookup_putEntry (place other : List String) (e : Entry)
    (entries : List (List String × Entry)) :
    (put.putEntry place e entries).lookup other
      = if other = place then some e else entries.lookup other := by
  induction entries with
  | nil =>
      by_cases h : other = place
      · simp [put.putEntry, h]
      · have hb : (other == place) = false := beq_eq_false_iff_ne.mpr h
        simp [put.putEntry, List.lookup_cons, h, hb]
  | cons entry rest ih =>
      obtain ⟨p, old⟩ := entry
      by_cases hp : p = place
      · subst hp
        by_cases h : other = p
        · simp [put.putEntry, h]
        · have hb : (other == p) = false := beq_eq_false_iff_ne.mpr h
          simp [put.putEntry, List.lookup_cons, h, hb]
      · by_cases h : other = p
        · have hne : ¬ p = place := hp
          subst h
          simp [put.putEntry, hne]
        · have hb : (other == p) = false := beq_eq_false_iff_ne.mpr h
          simp [put.putEntry, hp, List.lookup_cons, hb, ih]

/-- After an entry is put at a place below the root, that place has it, and all others are as they
were. -/
theorem get?_put (t : FileTree) (place other : List String) (e : Entry) (h : place ≠ []) :
    (t.put place e).get? other = if other = place then some e else t.get? other := by
  by_cases ho : other = []
  · subst ho
    have hne : ¬ [] = place := fun heq => h heq.symm
    simp [get?, hne]
  · have hempty : other.isEmpty = false := by simpa using ho
    simp [get?, hempty, put, lookup_putEntry]

/-- The names in a directory, with what they stand for. -/
def children (t : FileTree) (place : List String) : List (String × Entry) :=
  t.entries.filterMap fun (p, e) =>
    match p.getLast? with
    | some name => if p.dropLast = place then some (name, e) else none
    | none => none

/-- The most bytes in a name. -/
def maxNameLength : Nat := 255

/-- The most bytes in a path. -/
def maxPathLength : Nat := 4095

/-- The place that one more part of a path leads to from a place. -/
def step (t : FileTree) (place : List String) (part : String) : Except FileError (List String) :=
  match t.get? place with
  | none => .error .notFound
  | some (.file _) => .error .notDirectory
  | some .directory =>
      if part.isEmpty || part == "." then .ok place
      else if part == ".." then .ok place.dropLast
      else if maxNameLength < part.utf8ByteSize then .error .nameTooLong
      else if (t.get? (place ++ [part])).isSome then .ok (place ++ [part])
      else .error .notFound

def parts (p : Path) : List String :=
  Text.splitAt '/' p.text

/-- What is wrong with a path whatever the files are: the empty path leads nowhere. -/
def checkPath (p : Path) : Except FileError Unit :=
  if p.hasNul then .error .nulInName
  else if p.text.isEmpty then .error .notFound
  else if maxPathLength < p.text.utf8ByteSize then .error .nameTooLong
  else .ok ()

/-- The place that a path leads to. -/
def resolve (t : FileTree) (p : Path) : Except FileError (List String) := do
  checkPath p
  (parts p).foldlM t.step []

/-- The entry that a path leads to. -/
def at? (t : FileTree) (p : Path) : Option Entry :=
  match t.resolve p with
  | .ok place => t.get? place
  | .error _ => none

/-- The path leads somewhere. -/
def exists? (t : FileTree) (p : Path) : Bool :=
  (t.at? p).isSome

def isDirectory (t : FileTree) (p : Path) : Bool :=
  t.at? p == some .directory

/-- The parts of a path without empty ones at the end, split before the last. -/
def splitLast (p : Path) : List String × String :=
  match (parts p).reverse.dropWhile String.isEmpty with
  | [] => ([], "")
  | last :: before => (before.reverse, last)

def makeDirectory (t : FileTree) (p : Path) : Except FileError FileTree := do
  checkPath p
  let (before, last) := splitLast p
  let place ← before.foldlM t.step []
  match t.step place last with
  | .ok _ => throw .alreadyExists
  | .error .notFound => return t.put (place ++ [last]) .directory
  | .error e => throw e

/-- The tree with the content of a file written. -/
def write (t : FileTree) (p : Path) (content : Content) : Except FileError FileTree := do
  checkPath p
  let (before, last) := splitLast p
  let place ← before.foldlM t.step []
  match t.step place last with
  | .error .notFound =>
      if p.text.toList.getLast? == some '/' then throw .isDirectory
      else return t.put (place ++ [last]) (.file content)
  | .error e => throw e
  | .ok target =>
      match t.get? target with
      | some (.file _) =>
          if p.text.toList.getLast? == some '/' then throw .notDirectory
          else return t.put target (.file content)
      | _ => throw .isDirectory

def read (t : FileTree) (p : Path) : Except FileError String := do
  match t.get? (← t.resolve p) with
  | some (.file (.text s)) => return s
  | some (.file (.binary _)) => throw .notText
  | some .directory => throw .isDirectory
  | none => throw .notFound

/-- The names in a directory, with what they stand for. -/
def list (t : FileTree) (p : Path) : Except FileError (List (String × Entry)) := do
  let place ← t.resolve p
  match t.get? place with
  | some .directory => return t.children place
  | some (.file _) => throw .notDirectory
  | none => throw .notFound

end FileTree

end ServiceGen

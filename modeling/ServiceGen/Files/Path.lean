import ServiceGen.Text.Basic

/-!
Paths of files.  A path is a text whose parts are divided by slashes; empty parts and dots inside
of it mean nothing.  Its components, with the places where they end in the text, decide what its
parent, its file name and its extension are.
-/

namespace ServiceGen

/-- A path as it is written. -/
structure Path where
  text : String
deriving DecidableEq, Repr

inductive Component where
  | root | here | up
  | name (text : String)
deriving DecidableEq, Repr

def Component.text : Component → String
  | root => "/"
  | here => "."
  | up => ".."
  | name text => text

/-- The order of components: the special ones first, names by their characters. -/
def Component.compare : Component → Component → Ordering
  | name a, name b => Ord.compare a b
  | a, b => Ord.compare (rank a) (rank b)
where
  /-- The place of a kind of component in the order. -/
  rank : Component → Nat
    | root => 0
    | here => 1
    | up => 2
    | name _ => 3

namespace Path

def empty : Path := ⟨""⟩

/-- The character with the number zero is in the path. -/
def hasNul (p : Path) : Bool :=
  p.text.toList.contains '\x00'

def isAbsolute (p : Path) : Bool :=
  p.text.toList.head? == some '/'

/-- The component that a piece between slashes stands for; a dot counts only in front. -/
def componentOf? (first : Bool) (piece : List Char) : Option Component :=
  match piece with
  | [] => none
  | ['.'] => if first then some .here else none
  | ['.', '.'] => some .up
  | name => some (.name (.ofList name))

/-- The components of pieces that begin at `start`, each with the place where it ends. -/
def placedFrom (first : Bool) (start : Nat) : List (List Char) → List (Component × Nat)
  | [] => []
  | piece :: rest =>
      let stop := start + piece.length
      ((componentOf? first piece).map (·, stop)).toList ++ placedFrom false (stop + 1) rest

/-- The components with the places where they end in the text. -/
def placed (p : Path) : List (Component × Nat) :=
  (if p.isAbsolute then [(.root, 1)] else [])
    ++ placedFrom true 0 (Text.pieces (· == '/') p.text.toList)

def components (p : Path) : List Component :=
  p.placed.map (·.1)

/-- The beginning of the text. -/
def upTo (p : Path) (stop : Nat) : Path :=
  ⟨.ofList (p.text.toList.take stop)⟩

/-- The path without its last component; the root and the empty path have no parent. -/
def parent? (p : Path) : Option Path :=
  match p.placed.reverse with
  | [] | (.root, _) :: _ => none
  | _ :: [] => some empty
  | _ :: (_, stop) :: _ => some (p.upTo stop)

def fileName? (p : Path) : Option String :=
  match p.components.getLast? with
  | some (.name n) => some n
  | _ => none

/-- The path `q` as seen from `p`: an absolute path stays as it is. -/
def join (p q : Path) : Path :=
  if q.isAbsolute then q
  else if p.text.isEmpty || p.text.toList.getLast? == some '/' then ⟨p.text ++ q.text⟩
  else ⟨p.text ++ "/" ++ q.text⟩

/-- The path `p` continued by one written part. -/
def push (p : Path) (part : String) : Path :=
  p.join ⟨part⟩

/-- The length of a file name without its extension, which begins at the last point unless that is
the first character. -/
def stemLength (name : List Char) : Nat :=
  let rest := name.reverse.dropWhile (· != '.')
  if rest.length ≤ 1 then name.length else rest.length - 1

/-- The path with as many characters cut off at its end as its extension has.  The point in front
of the extension stays. -/
def cutExtension (p : Path) : Path :=
  match p.fileName? with
  | some n => p.upTo (p.text.length - (n.length - stemLength n.toList - 1))
  | none => p

/-- The path with an extension behind the stem of its file name; a path without a file name stays as
it is. -/
def putExtension (p : Path) (extension : String) : Path :=
  match p.placed.getLast? with
  | some (.name n, stop) =>
      ⟨(p.upTo (stop - n.length + stemLength n.toList)).text ++ "." ++ extension⟩
  | _ => p

/-- The path with another extension.  The old one is cut off first, and when only the two points of
the way up are left then, no other one is put there. -/
def withExtension (p : Path) (extension : String) : Path :=
  p.cutExtension.putExtension extension

def withFileName (p : Path) (name : String) : Path :=
  if p.fileName?.isSome then (p.parent?.getD p).push name else p.push name

/-- The order of paths, component by component. -/
def compare (p q : Path) : Ordering :=
  go p.components q.components
where
  /-- The order of lists of components. -/
  go : List Component → List Component → Ordering
    | [], [] => .eq
    | [], _ :: _ => .lt
    | _ :: _, [] => .gt
    | a :: as, b :: bs => (a.compare b).then (go as bs)

end Path

end ServiceGen

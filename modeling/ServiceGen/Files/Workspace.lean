import ServiceGen.Files.Tree

/-!
What a generation works on: a tree of files and the commands that it may start.  A `Job` keeps
what it has done so far when it fails.  The files of a generation go where its layout says: a server
has them in one package of the project, a client in the project itself.
-/

namespace ServiceGen

/-- A command that was started: the place it ran in, if one was asked for, its program and its
arguments. -/
structure StartedCommand where
  place : Option (List String)
  program : String
  arguments : List String
deriving DecidableEq, Repr

/-- The files and the commands of a generation. -/
structure Workspace where
  tree : FileTree
  /-- The programs that can be started by their names. -/
  programs : List String
  /-- The statuses with which the next commands exit; the others succeed. -/
  exits : List Nat
  started : List StartedCommand
deriving DecidableEq, Repr

/-- A piece of work on a workspace. -/
abbrev Job (α : Type) := ExceptT Failure (StateM Workspace) α

namespace FileTree

/-- The tree with a new directory, or as it is when that is there already. -/
def ensureDirectory (t : FileTree) (p : Path) : Except FileError FileTree :=
  match t.makeDirectory p with
  | .ok t => .ok t
  | .error e => if t.isDirectory p then .ok t else .error e

/-- The tree with a directory and those around it, of which there are at most `depth`. -/
def ensureDirectories (t : FileTree) (p : Path) : (depth : Nat) → Except FileError FileTree
  | 0 => .error .notFound
  | depth + 1 =>
      if p.text.isEmpty then .ok t
      else
        match t.ensureDirectory p, p.parent? with
        | .error .notFound, some around => do
            (← ensureDirectories t around depth).ensureDirectory p
        | result, _ => result

end FileTree

namespace Job

def tree : Job FileTree :=
  return (← get).tree

/-- Changes the tree; `path` is what cannot be written when that is refused. -/
def change (path : Path) (f : FileTree → Except FileError FileTree) : Job Unit := do
  match f (← tree) with
  | .ok t => modify ({ · with tree := t })
  | .error e => throw (.unwritable path e)

/-- Creates a directory and those around it. -/
def makeDirectories (p : Path) : Job Unit :=
  change p (·.ensureDirectories p (p.text.length + 1))

/-- The name of the file that makes a directory a package. -/
def packageFile : String := "__init__.py"

/-- Creates a directory and makes it a package. -/
def ensurePackage (dir : Path) : Job Unit := do
  makeDirectories dir
  let file := dir.push packageFile
  unless (← tree).exists? file do
    change file (·.write file (.text ""))

/-- Writes a file, and creates the directories around it. -/
def writeFile (p : Path) (text : String) : Job Unit := do
  if let some around := p.parent? then makeDirectories around
  change p (·.write p (.text text))

/-- The text of a file, which is empty when there is no file. -/
def readExisting (p : Path) : Job String := do
  if !(← tree).exists? p then return ""
  match (← tree).read p with
  | .ok text => return text
  | .error e => throw (.unwritable p e)

/-- The names of the packages in a directory, in ascending order; the generated one is not among
them. -/
def packagesIn (dir : Path) : Job (List String) := do
  let t ← tree
  match t.list dir with
  | .error e => throw (.unwritable dir e)
  | .ok entries =>
      let packages := entries.filter fun (name, _) =>
        name != "rpc" && t.isDirectory (dir.push name)
          && t.exists? ((dir.push name).push packageFile)
      return (packages.map (·.1)).mergeSort (· ≤ ·)

/-- Why a command cannot be started, if so: its directory comes first, then its program.  A program
that is given by a path would have to be executable, and no file is; a name made of dots leads to a
directory, which is not executable either. -/
def refusal? (w : Workspace) (place : Except FileError (List String)) (program : String) :
    Option FileError :=
  match place with
  | .error e => some e
  | .ok place =>
      if w.tree.get? place != some .directory then some .notDirectory
      else if program.toList.contains '/' then
        match w.tree.resolve ⟨program⟩ with
        | .error e => some e
        | .ok _ => some .permissionDenied
      else if program == "." || program == ".." then some .permissionDenied
      else if FileTree.maxNameLength < program.utf8ByteSize then some .nameTooLong
      else if w.programs.contains program then none
      else some .notFound

/-- Starts a command, in a directory if one is given, and gives its exit status. -/
def start (dir : Option Path) (program : String) (arguments : List String) :
    Job (Except FileError Nat) := do
  let w ← get
  if (dir.map Path.hasNul).getD false || (program :: arguments).any fun a => (Path.mk a).hasNul then
    return .error .nulInCommand
  let place := (dir.map w.tree.resolve).getD (.ok [])
  match refusal? w place program with
  | some e => return .error e
  | none =>
      let command : StartedCommand := ⟨dir.bind fun _ => place.toOption, program, arguments⟩
      set { w with exits := w.exits.drop 1, started := w.started ++ [command] }
      return .ok (w.exits.head?.getD 0)

end Job

inductive LayoutKind where
  | server | client
deriving DecidableEq, Repr

structure Layout where
  kind : LayoutKind
  base : Path
  /-- The stubs and, for a server, the registration file. -/
  root : Path
  /-- The descriptors. -/
  descriptors : Path
  /-- What the protocol compiler writes. -/
  encoded : Path
  /-- The data classes. -/
  dataClasses : Path
  runtime : Path
deriving DecidableEq, Repr

namespace Layout

def server (base : Path) : Layout :=
  let root := base.push "rpc"
  { kind := .server, base, root, descriptors := root.push "mid_file",
    encoded := root.push "encode", dataClasses := root.push "impl", runtime := root.push "runtime" }

def client (base : Path) : Layout :=
  let src := base.push "src"
  { kind := .client, base, root := base, descriptors := src.push "mid_file",
    encoded := src.push "encode", dataClasses := src.push "impl", runtime := base.push "runtime" }

def ofKind : LayoutKind → Path → Layout
  | .server => server
  | .client => client

/-- Creates the packages.  That of a server itself is made by its registration file. -/
def ensure (l : Layout) : Job Unit := do
  if l.kind = .client then Job.ensurePackage l.root
  Job.ensurePackage l.descriptors
  Job.ensurePackage l.encoded
  Job.ensurePackage l.dataClasses

end Layout

end ServiceGen

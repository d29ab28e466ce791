import ServiceGen.Config.Settings
import ServiceGen.Declaration.Assembly
import ServiceGen.Json.Parser
import ServiceGen.Schema.Check

/-!
Finding out what to generate: the declaration documents below a directory are read, the modules are
walked, and the services are put together and checked.
-/

namespace ServiceGen

/-- The documents below a directory: the modules they declare, the paths of those that were read,
and of those that could not be. -/
structure Loading where
  catalogue : Catalogue
  loaded : List Path
  skipped : List Path

namespace Loading

/-- The files below a place, each as the names that lead to it from there, which are not
hidden directories. -/
def visibleFiles (t : FileTree) (place : List String) : List (List String × Content) :=
  t.entries.filterMap fun (p, e) =>
    match e with
    | .directory => none
    | .file content =>
        let names := p.drop place.length
        if p.take place.length = place && !names.dropLast.any (·.toList.head? == some '.') then
          some (names, content)
        else none

/-- The files below a directory whose names end in `suffix`, in the order of their paths. -/
def documentFiles (t : FileTree) (root : Path) (place : List String) (suffix : String) :
    List (Path × Content) :=
  let files := (visibleFiles t place).filter fun (names, _) =>
    (Text.stripEnd? suffix (names.getLast?.getD "")).isSome
  (files.map fun (names, content) => (names.foldl Path.push root, content)).mergeSort
    fun a b => (a.1.compare b.1).isLE

def document? : Content → Option Document
  | .text s => ((Json.draft s).read Document.ofJson).toOption
  | .binary _ => none

/-- The loading with one more file. -/
def add (l : Loading) (file : Path × Content) : Loading :=
  match document? file.2 with
  | some d => { l with catalogue := l.catalogue.extend d, loaded := l.loaded ++ [file.1] }
  | none => { l with skipped := l.skipped ++ [file.1] }

/-- Loads all documents below a directory. -/
def ofDirectory (t : FileTree) (root : Path) (suffix : String) : Except Failure Loading :=
  match t.resolve root with
  | .error e => .error (.unreadableDeclarations root e)
  | .ok place =>
      if t.get? place != some .directory then .error (.unreadableDeclarations root .notDirectory)
      else .ok ((documentFiles t root place suffix).foldl add ⟨.empty, [], []⟩)

end Loading

/-- What is found below a directory. -/
structure Discovery where
  found : Findings
  services : List Service
  degradations : Degradations

namespace Discovery

def ofCatalogue (c : Catalogue) (maxDepth : Nat) (needImplementation : Bool) :
    Except Failure Discovery := do
  let found := (Walk.everywhere c maxDepth).found
  let (services, degradations) ←
    (Service.assemble needImplementation found.services found.implementations).run .none
  let problems := Service.checkAll services
  if problems.isEmpty then return ⟨found, services, degradations⟩ else throw (.invalid problems)

/-- What the documents below a directory declare. -/
def ofDirectory (t : FileTree) (root : Path) (scan : ScanSettings) (needImplementation : Bool) :
    Except Failure Discovery := do
  let loading ← Loading.ofDirectory t root scan.suffix
  ofCatalogue loading.catalogue scan.maxDepth needImplementation

end Discovery

end ServiceGen

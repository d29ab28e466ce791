import ServiceGen.Files.Workspace
import ServiceGen.Text.Basic

/-!
The programs that a generation starts.  Version control keeps the generated projects: repositories,
and submodules for the source project and for the runtime.  The protocol compiler turns descriptors
into message modules.  The module with the stubs has to import the messages from its own package, so
its import line is made relative.
-/

namespace ServiceGen

/-- The runtime package that every layout has as a submodule. -/
structure RuntimeSource where
  /-- The repository; without one no submodule is added. -/
  repo : String
  branch : String
deriving DecidableEq, Repr

namespace Git

/-- Runs git in a directory, and gives whether it succeeded. -/
def run (dir : Path) (arguments : List String) : Job Bool := do
  match ← Job.start (some dir) "git" arguments with
  | .ok status => return status == 0
  | .error .notFound => throw (.gitNotFound (" ".intercalate arguments))
  | .error e => throw (.notStarted ("git " ++ " ".intercalate arguments) e)

/-- Creates a directory and a repository in it, unless the directory is there. -/
def ensureRepository (enabled : Bool) (dir : Path) : Job Unit := do
  if (← Job.tree).exists? dir then return
  Job.makeDirectories dir
  if enabled then discard (run dir ["init"])

/-- Adds a submodule, unless something is there under its name. -/
def addSubmodule (enabled : Bool) (dir : Path) (source name : String) : Job Unit := do
  if enabled && !(← Job.tree).exists? (dir.push name) then
    discard (run dir ["submodule", "add", source, name])

def updateArguments (recursive : Bool) (name : Option String) : List String :=
  ["submodule", "update", "--init", "--remote"] ++ (if recursive then ["--recursive"] else [])
    ++ (match name with
      | some name => ["--", name]
      | none => [])

def updateSubmodules (enabled : Bool) (dir : Path) (recursive : Bool) (name : Option String) :
    Job Unit := do
  if enabled then discard (run dir (updateArguments recursive name))

/-- Does a task whose failure does not matter. -/
def quietly {α : Type} (task : Job α) (otherwise : α) : Job α :=
  tryCatch task fun _ => pure otherwise

/-- Adds the runtime as a submodule.  What an earlier attempt left behind is cleared away first,
and failures do not matter. -/
def addRuntime (l : Layout) (source : RuntimeSource) : Job Unit := do
  if source.repo.isEmpty then return
  discard (quietly (run l.base ["rm", "-r", "--cached", "rpc"]) false)
  discard (quietly (run l.base ["submodule", "deinit", l.runtime.text, "-f"]) false)
  let added ← quietly
    (run l.root ["submodule", "add", "-f", "-b", source.branch, source.repo, "runtime"]) false
  if added then discard (quietly (run l.runtime (updateArguments false none)) false)

/-- Makes sure that a layout has its runtime, and updates all submodules. -/
def ensureRuntime (enabled : Bool) (l : Layout) (source : RuntimeSource) : Job Unit := do
  if enabled then
    unless (← Job.tree).exists? l.runtime do addRuntime l source
    updateSubmodules enabled l.root true none

end Git

structure CompilerSettings where
  /-- The program and its first arguments, divided by blanks. -/
  command : String
  enabled : Bool
deriving DecidableEq, Repr

namespace CompilerSettings

/-- The program and its first arguments. -/
def words (c : CompilerSettings) : List String :=
  Text.words c.command

end CompilerSettings

namespace Compiler

/-- The import line that the compiler writes. -/
def absoluteImport (stem : String) : String :=
  "import " ++ stem ++ "_pb2 as " ++ stem ++ "__pb2"

/-- The import line that is wanted. -/
def relativeImport (stem : String) : String :=
  "from . import " ++ stem ++ "_pb2 as " ++ stem ++ "__pb2"

/-- The text with `old` replaced by `new` where it first is a whole line; `atStart` holds at the
start of a line. -/
def replaceLine? (old new : List Char) (atStart : Bool) : List Char → Option (List Char)
  | [] => if atStart && old.isEmpty then some new else none
  | c :: cs =>
      match if atStart then Text.strip? old (c :: cs) else none with
      | some [] => some new
      | some ('\n' :: rest) => some (new ++ '\n' :: rest)
      | _ => (replaceLine? old new (c == '\n') cs).map (c :: ·)

/-- The text with its first import of the messages made relative. -/
def withRelativeImport? (text stem : String) : Option String :=
  (replaceLine? (absoluteImport stem).toList (relativeImport stem).toList true text.toList).map
    .ofList

/-- Makes the import of the module with the stubs relative, and gives whether that changed it. -/
def relativizeStubModule (dir : Path) (stem : String) : Job Bool := do
  let file := dir.push (stem ++ "_pb2_grpc.py")
  match withRelativeImport? (← Job.readExisting file) stem with
  | some text => do
      Job.writeFile file text
      return true
  | none => return false

def arguments (l : Layout) (descriptor : Path) : List String :=
  ["-I" ++ l.descriptors.text, "--python_out=" ++ l.encoded.text,
    "--grpc_python_out=" ++ l.encoded.text, descriptor.text]

def compile (settings : CompilerSettings) (enabled : Bool) (l : Layout) (descriptor : Path)
    (stem : String) : Job Unit := do
  if enabled && settings.enabled then
    match settings.words with
    | [] => throw .compilerUnset
    | program :: first =>
        match ← Job.start none program (first ++ arguments l descriptor) with
        | .error .notFound => throw (.compilerNotFound settings.command)
        | .error e => throw (.notStarted settings.command e)
        | .ok status =>
            if status != 0 then throw (.compilerFailed descriptor status)
            discard (relativizeStubModule l.encoded stem)

end Compiler

end ServiceGen

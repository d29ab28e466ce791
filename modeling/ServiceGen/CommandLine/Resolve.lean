import ServiceGen.CommandLine.Command
import ServiceGen.Run.Rpc
import ServiceGen.Run.Web

/-!
From the words on a command line to a generation: paths as a user writes them are made absolute,
those that have to be there are looked up, and the source gives the project its name.
-/

namespace ServiceGen

/-- The absolute form of a path: below the home directory when it begins with a tilde, else below
the working directory. -/
def Path.absolute (written : String) (cwd : Path) (home : Option Path) : Path :=
  match Text.stripStart? "~/" written, home with
  | some rest, some home => home.push rest
  | _, _ => cwd.push written

def withoutEndSlashes (s : String) : List Char :=
  (s.toList.reverse.dropWhile (· == '/')).reverse

/-- The name of a project: the last part of its path or address, without the ending of
repositories. -/
def projectName? (source : String) : Option String :=
  let parts := Text.pieces (fun c => c == '/' || c == ':') (withoutEndSlashes source)
  let last := String.ofList (parts.getLast?.getD [])
  let name := (Text.stripEnd? ".git" last).getD last
  if name.isEmpty || name == "." || name == ".." then none else some name

/-- The path, if it leads somewhere. -/
def FileTree.existing (t : FileTree) (what : String) (p : Path) : Except Failure Path :=
  if t.exists? p then .ok p else .error (.missingPath what p)

namespace RpcArguments

/-- The source of a generation: a path, which has to be there unless the server is detached; then
it may be an address. -/
def resolveSource (t : FileTree) (cwd : Path) (home : Option Path) (detached : Bool)
    (written : String) : Except Failure String :=
  let here := Path.absolute written cwd home
  if detached then .ok (if t.exists? here then here.text else written)
  else (t.existing "source project path" here).map (·.text)

def resolve (t : FileTree) (cwd : Path) (home : Option Path) (a : RpcArguments) :
    Except Failure RpcOptions := do
  let outside := a.outside.map (Path.absolute · cwd home)
  let source ← resolveSource t cwd home outside.isSome a.source
  let client ← a.client.mapM fun written =>
    t.existing "client output path" (Path.absolute written cwd home)
  let declarations ← a.declarations.mapM fun written =>
    t.existing "declaration directory" (Path.absolute written cwd home)
  match projectName? source with
  | none => throw (.noProjectName source)
  | some project =>
      return {
        source, project, client, outside, declarations
        serverCode := outside.isNone && !a.noServerCode
        needImplementation := a.needImplementation
        skipVersionControl := a.skipVersionControl
        skipCompiler := a.skipCompiler }

end RpcArguments

namespace WebArguments

/-- What to generate; what is not said is taken from the settings. -/
def resolve (t : FileTree) (web : WebSettings) (cwd : Path) (home : Option Path)
    (a : WebArguments) : Except Failure WebOptions := do
  let source ← t.existing "source project path" (Path.absolute a.source cwd home)
  return {
    source
    apiOutput := Path.absolute a.apiOutput cwd home
    modelOutput := a.modelOutput.map (Path.absolute · cwd home)
    modelFilter := a.modelFilter.getD web.modelFilter
    enumHolders := Path.absolute (a.enumHolders.getD web.enumHolders) cwd home }

end WebArguments

/-- A generation that is ready to run. -/
inductive Generation where
  | rpc (o : RpcOptions)
  | web (o : WebOptions)

namespace CommandLine

/-- The settings and the generation that a command line asks for. -/
def resolve (t : FileTree) (cwd : Path) (home : Option Path) (c : CommandLine) :
    Except Failure (Settings × Generation) := do
  let settings ← Settings.load t (c.settingsFile.map Path.mk)
  match c.subcommand with
  | .rpc a => return (settings, .rpc (← a.resolve t cwd home))
  | .web a => return (settings, .web (← a.resolve t settings.web cwd home))

/-- The paths that a command line names; a generation reads and writes below them and below the
working directory only. -/
def paths (cwd : Path) (home : Option Path) (c : CommandLine) : List Path :=
  let written := match c.subcommand with
    | .rpc a => a.source :: [a.client, a.outside, a.declarations].filterMap id
    | .web a => a.source :: a.apiOutput :: [a.modelOutput, a.enumHolders].filterMap id
  written.map (Path.absolute · cwd home) ++ (c.settingsFile.map Path.mk).toList

def run (cwd : Path) (home : Option Path) (c : CommandLine) : Job Unit := do
  let (settings, generation) ← (c.resolve (← Job.tree) cwd home : Except _ _)
  match generation with
  | .rpc o => discard (RpcRun.run settings o)
  | .web o => discard (WebRun.run settings o)

end CommandLine

end ServiceGen

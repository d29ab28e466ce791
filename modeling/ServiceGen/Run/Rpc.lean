import ServiceGen.Message.Descriptor
import ServiceGen.Run.Discovery
import ServiceGen.Stub.Registration

/-!
Generating servers and clients: descriptors, which the protocol compiler turns into messages, and
the modules around them.
-/

namespace ServiceGen

/-- What to generate. -/
structure RpcOptions where
  /-- The directory of the source project; of a detached server, its repository. -/
  source : String
  /-- The name of the project in generated code. -/
  project : String
  client : Option Path
  /-- The server goes into the source project. -/
  serverCode : Bool
  needImplementation : Bool
  /-- The directory of a detached server. -/
  outside : Option Path
  /-- The directory of the declarations, if it is another than that of the project. -/
  declarations : Option Path
  skipVersionControl : Bool
  skipCompiler : Bool
deriving DecidableEq, Repr

/-- What was generated: the services, and the files that were written, in order. -/
structure RpcReport where
  services : List String
  written : List Path
deriving DecidableEq, Repr

namespace RpcRun

/-- Writes files, one after the other, and gives their paths. -/
def emit (files : List (Path × String)) : Job (List Path) :=
  files.mapM fun (path, text) => do
    Job.writeFile path text
    return path

/-- The directory of the declarations.  For a detached server the source project is first brought
in as a submodule. -/
def declarationRoot (o : RpcOptions) : Job Path := do
  if let some outside := o.outside then
    Git.ensureRepository (!o.skipVersionControl) outside
    Git.addSubmodule (!o.skipVersionControl) outside o.source o.project
    Git.updateSubmodules (!o.skipVersionControl) outside true (some o.project)
  return o.declarations.getD ((o.outside.map (·.push o.project)).getD ⟨o.source⟩)

def serverTarget (o : RpcOptions) : Option Path :=
  match o.outside with
  | some outside => some outside
  | none => if o.serverCode then some ⟨o.source⟩ else none

/-- Writes the descriptor of a service and has it compiled. -/
def descriptor (settings : Settings) (o : RpcOptions) (l : Layout) (s : Service) :
    Job (List Path) := do
  let d := Descriptor.ofService s
  let path := l.descriptors.push d.fileName
  let written ← emit [(path, d.render)]
  Compiler.compile settings.compiler (!o.skipCompiler) l path s.stem
  return written

/-- The modules of a service for one end of a call. -/
def modules (options : StubOptions) (l : Layout) (s : Service) : List (Path × String) :=
  let file := s.stem ++ ".py"
  match l.kind with
  | .server =>
      [(l.root.push file, Block.render (s.servicerModule options)),
        (l.dataClasses.push file, Block.render (s.dataModule .server))]
  | .client =>
      [(l.root.push file, Block.render (s.clientModule options)),
        (l.dataClasses.push file, Block.render (s.dataModule .client))]

/-- Generates what both ends of a call need. -/
def services (settings : Settings) (o : RpcOptions) (stubs : StubOptions) (l : Layout)
    (services : List Service) : Job (List Path) := do
  l.ensure
  Git.ensureRuntime (!o.skipVersionControl) l settings.runtime
  let written ← services.mapM fun s => do
    return (← descriptor settings o l s) ++ (← emit (modules stubs l s))
  return written.flatten

/-- Generates a server: what it shares with clients, its registration file and its launcher. -/
def server (settings : Settings) (o : RpcOptions) (stubs : StubOptions) (target : Path)
    (found : List Service) : Job (List Path) := do
  let l := Layout.server target
  let stubFiles ← services settings o stubs l found
  let file := l.root.push Job.packageFile
  let text := Registration.registration (← Job.readExisting file) o.project
    (Registration.projectBody found)
  let registration ← emit [(file, text)]
  let packages ← o.outside.mapM Job.packagesIn
  let launcherFile ← emit [(l.base.push "rpc_server.py", launcher packages)]
  return stubFiles ++ registration ++ launcherFile

/-- Generates what the options ask for. -/
def run (settings : Settings) (o : RpcOptions) : Job RpcReport := do
  let root ← declarationRoot o
  let d ← (Discovery.ofDirectory (← Job.tree) root settings.scan o.needImplementation : Except _ _)
  let stubs : StubOptions :=
    { fromProject := o.project, runtimePath := settings.web.runtimePath,
      apiPath := settings.web.apiPath }
  let served ← match serverTarget o with
    | some target => server settings o stubs target d.services
    | none => pure []
  let called ← match o.client with
    | some client => services settings o stubs (.client client) d.services
    | none => pure []
  return { services := d.services.map (·.name), written := served ++ called }

end RpcRun

end ServiceGen

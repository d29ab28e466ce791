import ServiceGen.Run.Discovery
import ServiceGen.Table.Module
import ServiceGen.Web.EnumResource

/-!
Generating web modules: resources with their data classes, the enumerations, and modules that map
models to tables.
-/

namespace ServiceGen

/-- What to generate. -/
structure WebOptions where
  source : Path
  apiOutput : Path
  modelOutput : Option Path
  modelFilter : String
  enumHolders : Path
deriving DecidableEq, Repr

namespace WebRun

/-- Writes files below a directory, and gives their paths. -/
def writeFiles (root : Path) (files : List GeneratedFile) : Job (List Path) :=
  files.mapM fun f => do
    let path := root.join f.path
    Job.writeFile path f.contents
    return path

/-- Makes packages of the directories between the output and a file. -/
def ensurePackages (output : Path) (f : GeneratedFile) : Job Unit := do
  let parts := ((f.path.parent?.map Path.components).getD []).map Component.text
  discard (parts.foldlM
    (fun dir part => do
      let dir := dir.push part
      Job.ensurePackage dir
      return dir) output)

/-- The files of the services.  The packages for each are made as soon as its modules are there. -/
def serviceFiles (output : Path) (stubs : StubOptions) (services : List Service) :
    Job (List GeneratedFile) := do
  let files ← services.mapM fun s => do
    let files ← (WebResource.files stubs s : Except _ _)
    files.forM (ensurePackages output)
    return files
  return files.flatten

/-- Generates the web modules of services and enumerations, and gives the paths of the files. -/
def modules (web : WebSettings) (output enumHolders : Path) (services : List Service)
    (scanned : EnumSet) : Job (List Path) := do
  let stubs : StubOptions :=
    { fromProject := "", runtimePath := web.runtimePath, apiPath := web.apiPath }
  Job.ensurePackage output
  let files ← serviceFiles output stubs services
  let enums ← (EnumSet.collect services scanned : Except _ _)
  let enumModules ← (EnumResource.modules web.apiPath enums.enums : Except _ _)
  let written ← writeFiles output (files ++
    [⟨⟨"api_reg.py"⟩, WebResource.registryModule services⟩,
      ⟨⟨"ss_enum.py"⟩, enumModules.resources⟩])
  Job.writeFile enumHolders enumModules.holders
  return written ++ [enumHolders]

/-- Generates the modules that map models to tables. -/
def tables (web : WebSettings) (output : Path) (modelFilter : String)
    (models : List ExportedModel) : Job (List Path) := do
  Job.ensurePackage output
  writeFiles output (TableModule.files web.apiPath modelFilter models)

/-- Generates what the options ask for, and gives the paths of the files. -/
def run (settings : Settings) (o : WebOptions) : Job (List Path) := do
  let d ← (Discovery.ofDirectory (← Job.tree) o.source settings.scan false : Except _ _)
  let written ← modules settings.web o.apiOutput o.enumHolders d.services d.found.enums
  match o.modelOutput with
  | none => return written
  | some output => return written ++ (← tables settings.web output o.modelFilter d.found.models)

end WebRun

end ServiceGen

import ServiceGen.Declaration.Walk
import ServiceGen.Run.Programs
import ServiceGen.Toml.Document

/-!
The settings of a project.  Every setting has a value to begin with, and a settings document in
TOML replaces some of them; it may not name anything else.  Written in JSON, settings have every
section with all of its entries.
-/

namespace ServiceGen

/-- Which declaration documents are read, and how far references are followed. -/
structure ScanSettings where
  suffix : String
  maxDepth : Nat
deriving DecidableEq, Repr

/-- Where web modules find what they import, and where enumerations go. -/
structure WebSettings where
  runtimePath : String
  apiPath : String
  enumHolders : String
  modelFilter : String
deriving DecidableEq, Repr

structure Settings where
  runtime : RuntimeSource
  compiler : CompilerSettings
  scan : ScanSettings
  web : WebSettings
deriving DecidableEq, Repr

/-- The runtime that is used unless the settings name another. -/
def RuntimeSource.standard : RuntimeSource :=
  { repo := "", branch := "master" }

/-- The compiler that is used unless the settings name another. -/
def CompilerSettings.standard : CompilerSettings :=
  { command := "python -m grpc_tools.protoc", enabled := true }

/-- How documents are found unless the settings tell otherwise. -/
def ScanSettings.standard : ScanSettings :=
  { suffix := ".rpc.json", maxDepth := Walk.defaultDepth }

/-- How web modules are written unless the settings tell otherwise. -/
def WebSettings.standard : WebSettings :=
  { runtimePath := "runtime", apiPath := "src", enumHolders := "enum.py", modelFilter := "" }

namespace Toml.Value

def text? : Value → Option String
  | text s => some s
  | _ => none

def bool? : Value → Option Bool
  | bool b => some b
  | _ => none

/-- A natural number of sixty-four bits. -/
def nat? : Value → Option Nat
  | int i => if 0 ≤ i && i < Nat.pow 2 64 then some i.toNat else none
  | _ => none

/-- The entries of a section with the given names.  A table must not have other names, and no name
has parts; an array gives its items to the names in order. -/
def entries? (names : List String) : Value → Option (List (String × Value))
  | table entries =>
      entries.mapM fun
        | ([name], v) => if names.contains name then some (name, v) else none
        | _ => none
  | array items => some (names.zip items)
  | _ => none

end Toml.Value

namespace Settings

open Toml

/-- The settings that hold without a document. -/
def standard : Settings :=
  { runtime := .standard, compiler := .standard, scan := .standard, web := .standard }

/-- The value of an entry, or another value when there is no entry. -/
def setting {α : Type} (entries : List (String × Value)) (name : String)
    (read : Value → Option α) (otherwise : α) : Option α :=
  match entries.lookup name with
  | some v => read v
  | none => some otherwise

/-- Reads the section about the runtime. -/
def readRuntime (v : Value) : Option RuntimeSource := do
  let entries ← v.entries? ["repo", "branch"]
  return { repo := ← setting entries "repo" Value.text? RuntimeSource.standard.repo
           branch := ← setting entries "branch" Value.text? RuntimeSource.standard.branch }

/-- Reads the section about the compiler. -/
def readCompiler (v : Value) : Option CompilerSettings := do
  let entries ← v.entries? ["command", "enabled"]
  return { command := ← setting entries "command" Value.text? CompilerSettings.standard.command
           enabled := ← setting entries "enabled" Value.bool? CompilerSettings.standard.enabled }

/-- Reads the section about documents. -/
def readScan (v : Value) : Option ScanSettings := do
  let entries ← v.entries? ["suffix", "max_depth"]
  return { suffix := ← setting entries "suffix" Value.text? ScanSettings.standard.suffix
           maxDepth := ← setting entries "max_depth" Value.nat? ScanSettings.standard.maxDepth }

/-- Reads the section about web modules. -/
def readWeb (v : Value) : Option WebSettings := do
  let entries ← v.entries? ["runtime_path", "api_path", "enum_gen_path", "model_filter"]
  let text := fun name otherwise => setting entries name Value.text? otherwise
  return { runtimePath := ← text "runtime_path" WebSettings.standard.runtimePath
           apiPath := ← text "api_path" WebSettings.standard.apiPath
           enumHolders := ← text "enum_gen_path" WebSettings.standard.enumHolders
           modelFilter := ← text "model_filter" WebSettings.standard.modelFilter }

def parse? (text : String) : Option Settings := do
  let document ← Document.parse? text
  let whole := Value.table (document.entries.map fun (name, v) => ([name], v))
  let entries ← whole.entries? ["runtime", "protoc", "scan", "web"]
  return { runtime := ← setting entries "runtime" readRuntime .standard
           compiler := ← setting entries "protoc" readCompiler .standard
           scan := ← setting entries "scan" readScan .standard
           web := ← setting entries "web" readWeb .standard }

/-- The settings in a file, or those that hold without one. -/
def load (t : FileTree) : Option Path → Except Failure Settings
  | none => .ok standard
  | some path =>
      match t.read path with
      | .error e => .error (.unreadableConfig path e)
      | .ok text =>
          match parse? text with
          | some settings => .ok settings
          | none => .error .invalidConfig

end Settings

/-- Writes the section about the runtime. -/
def RuntimeSource.toJson (s : RuntimeSource) : Json :=
  .obj [("repo", .str s.repo), ("branch", .str s.branch)]

/-- Writes the section about the compiler. -/
def CompilerSettings.toJson (s : CompilerSettings) : Json :=
  .obj [("command", .str s.command), ("enabled", .bool s.enabled)]

/-- Writes the section about documents. -/
def ScanSettings.toJson (s : ScanSettings) : Json :=
  .obj [("suffix", .str s.suffix), ("max_depth", .num (.int s.maxDepth))]

/-- Writes the section about web modules. -/
def WebSettings.toJson (s : WebSettings) : Json :=
  .obj [("runtime_path", .str s.runtimePath), ("api_path", .str s.apiPath),
    ("enum_gen_path", .str s.enumHolders), ("model_filter", .str s.modelFilter)]

def Settings.toJson (s : Settings) : Json :=
  .obj [("runtime", s.runtime.toJson), ("protoc", s.compiler.toJson), ("scan", s.scan.toJson),
    ("web", s.web.toJson)]

end ServiceGen

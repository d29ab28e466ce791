import ServiceGen.CommandLine.Option
import ServiceGen.Text.Basic

/-!
The command line of the generator: one subcommand for calls and one for web modules, each with its
options, and two options that may stand anywhere.
-/

namespace ServiceGen

/-- The arguments of a generation of servers and clients. -/
structure RpcArguments where
  source : String
  client : Option String
  noServerCode : Bool
  needImplementation : Bool
  outside : Option String
  declarations : Option String
  skipVersionControl : Bool
  skipCompiler : Bool
deriving DecidableEq, Repr

structure WebArguments where
  source : String
  apiOutput : String
  modelOutput : Option String
  modelFilter : Option String
  enumHolders : Option String
deriving DecidableEq, Repr

inductive Subcommand where
  | rpc (a : RpcArguments)
  | web (a : WebArguments)
deriving DecidableEq, Repr

structure CommandLine where
  settingsFile : Option String
  verbosity : Nat
  subcommand : Subcommand
deriving DecidableEq, Repr

namespace CommandLine

/-- The options that may stand before and after the subcommand. -/
def globalOptions : List CommandOption :=
  [⟨"config", none, .path, false⟩, ⟨"verbose", some 'v', .count, false⟩,
    ⟨"help", some 'h', .help, false⟩]

def rootOptions : List CommandOption :=
  globalOptions ++ [⟨"version", some 'V', .version, false⟩]

def rpcOptions : List CommandOption :=
  [⟨"source-project-path", some 's', .text, true⟩, ⟨"client-output-path", some 'c', .text, false⟩,
    ⟨"no-server-code", none, .flag, false⟩, ⟨"need-impl", none, .flag, false⟩,
    ⟨"outside-server-path", some 'o', .text, false⟩, ⟨"declarations", none, .text, false⟩,
    ⟨"skip-vcs", none, .flag, false⟩, ⟨"skip-protoc", none, .flag, false⟩] ++ globalOptions

def webOptions : List CommandOption :=
  [⟨"source-project-path", some 's', .text, true⟩, ⟨"api-output", some 'a', .text, true⟩,
    ⟨"model-output", some 'm', .text, false⟩, ⟨"model-filter", none, .text, false⟩,
    ⟨"enum-gen-path", some 'e', .text, false⟩] ++ globalOptions

inductive SubcommandName where
  | rpc | web
deriving DecidableEq, Repr

namespace SubcommandName

def ofWord? : String → Option SubcommandName
  | "rpc" => some rpc
  | "web" => some web
  | _ => none

def options : SubcommandName → List CommandOption
  | rpc => rpcOptions
  | web => webOptions

/-- The subcommand with what its options have set; `none` when a required one is missing. -/
def build? (s : Scan) : SubcommandName → Option Subcommand
  | rpc => do
      return .rpc {
        source := ← s.value? "source-project-path"
        client := s.value? "client-output-path"
        noServerCode := s.has "no-server-code"
        needImplementation := s.has "need-impl"
        outside := s.value? "outside-server-path"
        declarations := s.value? "declarations"
        skipVersionControl := s.has "skip-vcs"
        skipCompiler := s.has "skip-protoc" }
  | web => do
      return .web {
        source := ← s.value? "source-project-path"
        apiOutput := ← s.value? "api-output"
        modelOutput := s.value? "model-output"
        modelFilter := s.value? "model-filter"
        enumHolders := s.value? "enum-gen-path" }

end SubcommandName

/-- Settles what is pending at the end of a level, and takes the settings file from the environment
into account, which must not be empty if it is used. -/
def finish (environment : Option String) (s : Scan) : Except UsageError Scan := do
  let s ← s.settle
  match s.value? "config", environment with
  | none, some "" => .error .invalidValue
  | _, _ => return s

def scanSubcommand (name : SubcommandName) (s : Scan) : List String → Except UsageError Scan
  | [] => .ok s
  | w :: ws => do
      match ← s.word name.options w with
      | .goOn s => scanSubcommand name s ws
      | .plain _ => .error .unknownArgument

/-- What asking for help about the words gives; there is help about each subcommand. -/
def helpAbout (words : List String) : UsageError :=
  match words with
  | [] => .help
  | [w] => if ["rpc", "web", "help"].contains w then .help else .invalidSubcommand
  | _ => .invalidSubcommand

/-- What the words set before the subcommand, and the subcommand with what is set behind it. -/
def scanRoot (environment : Option String) (s : Scan) :
    List String → Except UsageError (Scan × Option (Subcommand × Scan))
  | [] => .ok (s, none)
  | w :: ws =>
      if !s.trailing && !s.isWaiting && w == "help" then .error (helpAbout ws)
      else
        match if s.trailing || s.isWaiting then none else SubcommandName.ofWord? w with
        | some name => do
            let below ← finish environment (← scanSubcommand name .start ws)
            match name.build? below with
            | some subcommand => return (s, some (subcommand, below))
            | none => .error .missingRequiredArgument
        | none => do
            match ← s.word rootOptions w with
            | .goOn s => scanRoot environment s ws
            | .plain s =>
                if s.trailing && (w == "help" || (SubcommandName.ofWord? w).isSome) then
                  .error .unknownArgument
                else .error .invalidSubcommand

/-- Something is set. -/
def isUsed (s : Scan) : Bool :=
  !s.values.isEmpty || !s.flags.isEmpty || s.count != 0

/-- Reads a command line.  `environment` is the settings file that the environment names; what is
said behind the subcommand wins over what is said before it, and both win over the environment. -/
def parse (environment : Option String) (words : List String) :
    Except UsageError CommandLine := do
  let (root, below?) ← scanRoot environment .start words
  let root ← finish environment root
  match below? with
  | none =>
      if isUsed root || environment.isSome then .error .missingSubcommand
      else .error .helpForNothing
  | some (subcommand, below) =>
      return {
        settingsFile := (below.value? "config").or ((root.value? "config").or environment)
        verbosity := if below.count != 0 then below.count else root.count
        subcommand }

/-- How an option is written in a help text. -/
def optionLine (o : CommandOption) : String :=
  let short := match o.short with
    | some c => "-" ++ String.singleton c ++ ", "
    | none => ""
  "  " ++ short ++ "--" ++ o.long ++ (if o.takesValue then " VALUE" else "")
    ++ (if o.required then " (required)" else "")

/-- The help text: the subcommands with their options, and the options that may stand anywhere. -/
def help : String :=
  let own (options : List CommandOption) :=
    options.take (options.length - globalOptions.length)
  "\n".intercalate
    (["rpc: generate servers and clients"] ++ (own rpcOptions).map optionLine
      ++ ["web: generate web modules"] ++ (own webOptions).map optionLine
      ++ ["anywhere:"] ++ globalOptions.map optionLine)

def version : String := "0.4.0"

/-- The level of detail in the log: what the environment asks for, unless the command line asks for
more. -/
def logLevel (verbosity : Nat) (environment : Option String) : String :=
  match verbosity with
  | 0 =>
      match environment with
      | some level => if Text.allBlank level then "info" else level
      | none => "info"
  | 1 => "debug"
  | _ => "trace"

end CommandLine

end ServiceGen

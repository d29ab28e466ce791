import ServiceGen.Files.Path
import ServiceGen.Problems
import ServiceGen.Schema.Enumeration

/-!
Everything that can make a generation fail, with the messages that tell the user about it.
-/

namespace ServiceGen

/-- Why the operating system refuses to work on a file, or what is wrong with its content. -/
inductive FileError where
  | notFound | permissionDenied | alreadyExists | notDirectory | isDirectory | nameTooLong | notText
  /-- The character with the number zero is in the name of a file. -/
  | nulInName
  /-- The character with the number zero is in a command. -/
  | nulInCommand
deriving DecidableEq, Repr

def FileError.message : FileError → String
  | notFound => "No such file or directory (os error 2)"
  | permissionDenied => "Permission denied (os error 13)"
  | alreadyExists => "File exists (os error 17)"
  | notDirectory => "Not a directory (os error 20)"
  | isDirectory => "Is a directory (os error 21)"
  | nameTooLong => "File name too long (os error 36)"
  | notText => "stream did not contain valid UTF-8"
  | nulInName => "file name contained an unexpected NUL byte"
  | nulInCommand => "nul byte found in provided data"

/-- A method whose positional parameters are not all annotated. -/
structure MissingHints where
  className : String
  method : String
  positional : Nat
  annotated : Nat
  missing : List String
  parameters : List String
deriving DecidableEq, Repr

def MissingHints.message (m : MissingHints) : String :=
  "method '" ++ m.method ++ "' of class '" ++ m.className ++ "' has " ++ toString m.positional
    ++ " positional parameters but only " ++ toString m.annotated
    ++ " annotated; add type annotations for [" ++ ", ".intercalate m.missing
    ++ "] (parameters: [" ++ ", ".intercalate m.parameters ++ "])"

/-- Why a generation fails. -/
inductive Failure where
  /-- The services do not keep to the rules for descriptions. -/
  | invalid (problems : Problems)
  /-- Two different enumerations have the same name. -/
  | enumClash (clash : NameClash)
  | missingImplementation (service : String)
  | missingHints (m : MissingHints)
  | untypedParameter (className method parameter : String)
  | unreadableDeclarations (path : Path) (error : FileError)
  /-- An operation that takes its arguments in the address has one with parts. -/
  | nestedGetParameter (service operation parameter : String)
  | unnamedEnum (module : String)
  | unwritable (path : Path) (error : FileError)
  | unreadableConfig (path : Path) (error : FileError)
  | invalidConfig
  | missingPath (what : String) (path : Path)
  | noProjectName (source : String)
  | compilerNotFound (command : String)
  | compilerFailed (file : Path) (status : Nat)
  | compilerUnset
  | gitNotFound (action : String)
  | notStarted (program : String) (error : FileError)

/-- What the user is told about a failure. -/
def Failure.message : Failure → String
  | invalid problems => "validation failed: " ++ problems.render
  | enumClash c =>
      "duplicate enum name '" ++ c.name ++ "' declared in '" ++ c.first ++ "' and '" ++ c.second
        ++ "'"
  | missingImplementation service =>
      "found service " ++ service ++ " definition without implement code"
  | missingHints m => m.message
  | untypedParameter className method parameter =>
      "parameter '" ++ parameter ++ "' of '" ++ className ++ "." ++ method
        ++ "' has no type definition"
  | unreadableDeclarations path error =>
      "cannot read declarations at '" ++ path.text ++ "': " ++ error.message
  | nestedGetParameter service operation parameter =>
      "get method '" ++ service ++ "." ++ operation ++ "' cannot take nested parameter '"
        ++ parameter ++ "'; use a post method instead"
  | unnamedEnum module => "enum declared in '" ++ module ++ "' has no name"
  | unwritable path error => "cannot write '" ++ path.text ++ "': " ++ error.message
  | unreadableConfig path error => "cannot read config '" ++ path.text ++ "': " ++ error.message
  | invalidConfig => "invalid config"
  | missingPath what path => what ++ " '" ++ path.text ++ "' does not exist"
  | noProjectName source => "cannot derive a project name from '" ++ source ++ "'"
  | compilerNotFound command => "protocol compiler '" ++ command ++ "' can not be found"
  | compilerFailed file status =>
      "protocol compiler failed on '" ++ file.text ++ "' (exit status: " ++ toString status ++ ")"
  | compilerUnset => "protocol compiler command is empty"
  | gitNotFound action => "can not find the git command for '" ++ action ++ "'"
  | notStarted program error => "cannot run '" ++ program ++ "': " ++ error.message

end ServiceGen

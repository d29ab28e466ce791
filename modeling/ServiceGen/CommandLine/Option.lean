import ServiceGen.Text.Basic

/-!
Options on a command line.  A `Scan` goes over the words of one level of a command line and keeps
what they set; a value that an option waits for is settled when the next option comes or the words
end.
-/

namespace ServiceGen

/-- What is wrong with a command line, or what it asks for instead of a run. -/
inductive UsageError where
  | invalidValue | unknownArgument | invalidSubcommand | argumentConflict | tooManyValues
  | missingRequiredArgument | missingSubcommand | helpForNothing | help | version
deriving DecidableEq, Repr

namespace UsageError

def message : UsageError → String
  | invalidValue => "an option has no value, or one that cannot be used"
  | unknownArgument => "there is no such option"
  | invalidSubcommand => "there is no such subcommand"
  | argumentConflict => "an option is given twice"
  | tooManyValues => "a flag does not take a value"
  | missingRequiredArgument => "a required option is missing"
  | missingSubcommand => "a subcommand is missing"
  | helpForNothing => "nothing is asked for"
  | help => "help is asked for"
  | version => "the version is asked for"

end UsageError

inductive OptionAction where
  | flag | count | help | version
  /-- Takes any text. -/
  | text
  /-- Takes the path of a file, which must not be empty. -/
  | path
deriving DecidableEq, Repr

structure CommandOption where
  long : String
  short : Option Char
  action : OptionAction
  required : Bool
deriving DecidableEq, Repr

namespace CommandOption

def takesValue (o : CommandOption) : Bool :=
  o.action == .text || o.action == .path

end CommandOption

/-- What the words of one level have set so far.  `pending` is an option whose value is not settled
yet, with the value if it has come. -/
structure Scan where
  values : List (String × String)
  flags : List String
  count : Nat
  pending : Option (CommandOption × Option String)
  /-- Only plain words follow. -/
  trailing : Bool

namespace Scan

def start : Scan := ⟨[], [], 0, none, false⟩

def value? (s : Scan) (long : String) : Option String :=
  s.values.lookup long

def has (s : Scan) (long : String) : Bool :=
  s.flags.contains long

def isWaiting (s : Scan) : Bool :=
  match s.pending with
  | some (_, none) => true
  | _ => false

/-- Sets an option that takes a value, which is possible once. -/
def set (s : Scan) (o : CommandOption) (v : String) : Except UsageError Scan :=
  if (s.value? o.long).isSome then .error .argumentConflict
  else if o.action == .path && v.isEmpty then .error .invalidValue
  else .ok { s with values := s.values ++ [(o.long, v)] }

def settle (s : Scan) : Except UsageError Scan :=
  match s.pending with
  | none => .ok s
  | some (_, none) => .error .invalidValue
  | some (o, some v) => { s with pending := none }.set o v

/-- Applies an option that comes without a value. -/
def apply (s : Scan) (o : CommandOption) : Except UsageError Scan := do
  let s ← s.settle
  match o.action with
  | .flag =>
      if s.has o.long then .error .argumentConflict
      else return { s with flags := s.flags ++ [o.long] }
  | .count => return { s with count := min (s.count + 1) 255 }
  | .help => .error .help
  | .version => .error .version
  | .text | .path => return { s with pending := some (o, none) }

/-- Applies an option that comes together with its value. -/
def applyWith (s : Scan) (o : CommandOption) (v : String) : Except UsageError Scan := do
  (← s.settle).set o v

/-- Applies a word that begins with two hyphens, which are left out here. -/
def long (options : List CommandOption) (s : Scan) (word : String) : Except UsageError Scan :=
  let name := word.toList.takeWhile (· != '=')
  let attached := (word.toList.drop name.length).tail?
  match options.find? (·.long.toList == name), attached with
  | none, _ => .error .unknownArgument
  | some o, none => s.apply o
  | some o, some v => if o.takesValue then s.applyWith o (.ofList v) else .error .tooManyValues

/-- Applies the letters behind one hyphen.  The first option that takes a value takes what is left,
without an equals sign in front of it. -/
def short (options : List CommandOption) (s : Scan) : List Char → Except UsageError Scan
  | [] => .ok s
  | c :: cs =>
      match options.find? (·.short == some c) with
      | none => .error .unknownArgument
      | some o =>
          if o.takesValue then
            match cs with
            | [] => s.apply o
            | '=' :: v => s.applyWith o (.ofList v)
            | v => s.applyWith o (.ofList v)
          else do short options (← s.apply o) cs

/-- A word that is no option. -/
inductive Outcome where
  | goOn (s : Scan)
  | plain (s : Scan)

/-- Applies a word; a plain one that no option waits for is left to the caller. -/
def word (options : List CommandOption) (s : Scan) (w : String) : Except UsageError Outcome :=
  if s.trailing then .ok (.plain s)
  else
    match w.toList with
    | ['-', '-'] => .ok (.goOn { s with trailing := true })
    | '-' :: '-' :: cs => (s.long options (.ofList cs)).map .goOn
    | '-' :: c :: cs => (s.short options (c :: cs)).map .goOn
    | _ =>
        match s.pending with
        | some (o, none) => .ok (.goOn { s with pending := some (o, some w) })
        | _ => .ok (.plain s)

end Scan

end ServiceGen

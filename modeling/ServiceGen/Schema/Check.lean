import ServiceGen.Naming
import ServiceGen.Problems
import ServiceGen.Schema.Service

/-!
What a service has to keep to so that code can be written for it.  All problems are reported
together, each under the names that lead to it.
-/

namespace ServiceGen

namespace Problems

/-- The problems with one more, at the end of a route. -/
def report (p : Problems) (route : List String) (message : String) : Problems :=
  match route with
  | [] => p.attach "" (empty.add message)
  | first :: rest =>
      p.attach first (rest.foldr (fun part below => empty.attach part below) (empty.add message))

end Problems

namespace DataType

mutual

/-- The problems with those of a type at `route`: an element of a list must be neither void nor a
list, the names of fields must be identifiers, and an enumeration has members and is over a
scalar. -/
def check (route : List String) (p : Problems) : DataType → Problems
  | { kind := .list element, .. } =>
      let p := if element.isVoid then p.report route "list element cannot be void" else p
      let p := if element.isList then p.report route "list element cannot be a list" else p
      check (route ++ ["elem"]) p element
  | { kind := .dict ⟨fields⟩, .. } => checkFields route p fields
  | { kind := .enum _ underlying members, .. } =>
      let p := if underlying.isScalar then p
        else p.report route "enum underlying type must be a scalar"
      if members.isEmpty then p.report route "enum has no members" else p
  | _ => p

/-- The problems with those of the fields of a dict at `route`. -/
def checkFields (route : List String) (p : Problems) : List (String × DataType) → Problems
  | [] => p
  | (name, t) :: rest =>
      let p := if Naming.isIdentifier name then p
        else p.report route ("field name '" ++ name ++ "' is not an identifier")
      checkFields route (check (route ++ [name]) p t) rest

end

end DataType

namespace Operation

/-- The problems with those of the arguments; `seen` are the names of those before. -/
def checkArguments (p : Problems) (seen : List String) : List Argument → Problems
  | [] => p
  | a :: rest =>
      let p := if a.name ∈ seen then p.add ("duplicate argument '" ++ a.name ++ "'") else p
      checkArguments (a.type.check [a.name] p) (a.name :: seen) rest

def check (o : Operation) : Problems :=
  o.result.check ["result"] (checkArguments .empty [] o.arguments)

end Operation

namespace Service

def check (s : Service) : Problems :=
  s.operations.foldl (fun p o => p.attach o.name o.check) .empty

/-- The problems of several services. -/
def checkAll (services : List Service) : Problems :=
  services.foldl (fun p s => p.attach s.name s.check) .empty

end Service

end ServiceGen

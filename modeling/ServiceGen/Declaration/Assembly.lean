import ServiceGen.Declaration.Methods
import ServiceGen.Declaration.Walk

/-!
Services put together from the classes that declare them and the classes that implement them, and
the enumerations that they use.
-/

namespace ServiceGen

/-- The service of a class; there is none when the class has no operation.  The implementation is
the first class with the right name, and one may be demanded. -/
def ClassDeclaration.service? (needImplementation : Bool) (implementations : List ClassDeclaration)
    (c : ClassDeclaration) : Counted (Option Service) := do
  let operations ← c.operations
  if operations.isEmpty then return none
  let implementation := implementations.find? (·.name == c.implementedBy)
  if implementation.isNone && needImplementation then throw (.missingImplementation c.name)
  return some {
    name := c.name
    declaredAs := c.className
    operations
    implementation := implementation.map (·.className)
    webNamespace := c.webNamespace }

namespace Service

/-- The services of several classes, in the order of their names. -/
def assemble (needImplementation : Bool) (classes implementations : List ClassDeclaration) :
    Counted (List Service) := do
  let services ← classes.mapM (·.service? needImplementation implementations)
  return sortByName Service.name (services.filterMap id)

end Service

namespace DataType

mutual

/-- The enumerations inside of a type, through lists and dicts. -/
def inlineEnums : DataType → List DataType
  | { kind := .list element, .. } => inlineEnums element
  | { kind := .dict ⟨fields⟩, .. } => inlineEnumsOf fields
  | t@{ kind := .enum .., .. } => [t]
  | _ => []

/-- The enumerations inside of named types. -/
def inlineEnumsOf : List (String × DataType) → List DataType
  | [] => []
  | (_, t) :: rest => inlineEnums t ++ inlineEnumsOf rest

end

end DataType

/-- The types of a service: those of the arguments and the result of each operation. -/
def Service.types (s : Service) : List DataType :=
  s.operations.flatMap fun o => o.arguments.map (·.type) ++ [o.result]

namespace EnumSet

/-- The enumerations of a walk and those inside the types of services.  Two different ones of the
same name are refused. -/
def collect (services : List Service) (scanned : EnumSet) : Except Failure EnumSet :=
  let met := (services.flatMap Service.types).flatMap DataType.inlineEnums
  let all := scanned.extend (met.map fun t => .ofType "" "" t)
  match all.clash? with
  | some clash => .error (.enumClash clash)
  | none => .ok all

end EnumSet

end ServiceGen

import ServiceGen.Declaration.Methods
import ServiceGen.Web.Resource

/-!
The modules for enumerations: classes that hold their values, and web resources that list them.
-/

namespace ServiceGen

namespace EnumResource

/-- An enumeration that can be written: one with a name. -/
structure Named where
  name : String
  type : DataType
  underlying : DataType
  members : Fields

namespace Named

/-- The enumeration under its name; `none` for a type that is no enumeration. -/
def ofExport? (name : String) (e : ExportedEnum) : Option Named :=
  match e.type.kind with
  | .enum _ underlying members => some ⟨name, e.type, underlying, members⟩
  | _ => none

/-- The property for a member of the holder class. -/
def propertyBlocks (key : String) (member : DataType) : List Block :=
  [.blank, .line "@property"]
  ++ Block.colon ("def " ++ key ++ "(self) -> " ++ member.typeName)
    ([.line "\"\"\""] ++ Block.lines member.description
      ++ [.line "\"\"\"", .line ("return " ++ member.defaultLiteral)])

/-- The class that holds the values, and its only instance. -/
def holder (e : Named) : List Block :=
  Block.colon ("class _" ++ e.name ++ "(object)")
    ([.line "\"\"\""] ++ Block.lines e.type.description ++ [.line "\"\"\"", .blank]
      ++ Block.around "enum_description = \x7b"
        (e.members.entries.map fun (_, member) => .line
          (member.defaultLiteral ++ ": " ++ Literal.quote member.description ++ ",")) "\x7d"
      ++ e.members.entries.flatMap (fun (key, member) => propertyBlocks key member)
      ++ [.blank, .line "@classmethod"]
      ++ Block.colon ("def get_desc(cls, value: " ++ e.underlying.typeName ++ ") -> str")
        [.line "return cls.enum_description.get(value, \"\")"])
  ++ [.blank, .blank, .line (e.name ++ " = _" ++ e.name ++ "()"), .blank, .blank]

def className (e : Named) : String :=
  Naming.pretty e.name

/-- The lines that describe the answer: the enumeration and each of its members. -/
def answerLines (e : Named) : List Block :=
  .line (Literal.quote (e.type.description ++ "<br/>"))
    :: e.members.entries.map fun (key, member) => .line
      (Literal.quote
        (member.defaultLiteral ++ ": " ++ key ++ " - " ++ member.description ++ "<br/>"))

def answerModel (e : Named) : List Block :=
  Block.around (e.className ++ "EnumResultModel = ns.response(")
    ([.line "200,"] ++ e.answerLines ++ [.line ","]
      ++ Block.around ("api.model(\"" ++ e.className ++ "EnumResultDefine\", \x7b")
        (Block.around "\"info\": fields.List("
          (Block.around "fields.Nested("
            (Block.around
              ("model=api.model(\"" ++ e.className ++ "EnumResultInfoDefine\", \x7b")
              (.line "\"key\": fields.String(description=\"enum name\"),"
                :: Block.around ("\"value\": " ++ e.underlying.webFieldClass ++ "(")
                  (.line "description=\"enum value\"," :: e.type.defaultLine "default=") "),")
              "\x7d),") ")") ")") "\x7d)") ")"

def memberBlocks (key : String) (member : DataType) : List Block :=
  Block.around "\x7b"
    [.line ("\"key\": " ++ Literal.quote key ++ ","),
      .line ("\"value\": " ++ member.defaultLiteral ++ ","),
      .line ("\"description\": " ++ Literal.quote member.description ++ ",")] "\x7d,"

/-- The resource that lists the members. -/
def resource (e : Named) : List Block :=
  [.blank, .blank] ++ e.answerModel ++ [.blank, .blank,
    .line ("@ns.route(\"/" ++ e.name ++ "\")")]
  ++ Block.colon ("class " ++ e.className ++ "(Resource)")
    (.line ("@" ++ e.className ++ "EnumResultModel")
      :: Block.colon "def get(self)"
        (Block.around "return \x7b"
          (Block.around "\"info\": ["
            (e.members.entries.flatMap fun (key, member) => memberBlocks key member) "]") "\x7d"))

end Named

structure Modules where
  holders : String
  resources : String
deriving DecidableEq, Repr

/-- The name of an enumeration, which it needs. -/
def nameOf (e : ExportedEnum) : Except Failure (String × ExportedEnum) :=
  match e.name? with
  | some name => .ok (name, e)
  | none => .error (.unnamedEnum e.module)

def header (apiPath : String) : List Block :=
  [.line "from flask_restplus import fields, Resource",
    .line ("from " ++ apiPath ++ " import api"), .blank, .blank,
    .line "ns = api.namespace(\"enum\", description=\"enum definitions\")"]

def modules (apiPath : String) (enums : List ExportedEnum) : Except Failure Modules := do
  let named := (sortByName Prod.fst (← enums.mapM nameOf)).filterMap fun (name, e) =>
    Named.ofExport? name e
  return ⟨Block.render (named.flatMap Named.holder),
    Block.render (header apiPath ++ named.flatMap Named.resource)⟩

end EnumResource

end ServiceGen

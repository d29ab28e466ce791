import ServiceGen.Declaration.Methods
import ServiceGen.Schema.Model
import ServiceGen.SortedMap
import ServiceGen.Source.Block
import ServiceGen.Source.Literal
import ServiceGen.Stub.Module
import ServiceGen.Text.Basic

/-!
Modules that map data models to tables.  The models of a group, those whose modules end in the same
name, are written together, once as declarative classes and once as plain tables.
-/

namespace ServiceGen

/-- The two ways to write a table. -/
inductive TableForm where
  | declarative | plain
deriving DecidableEq, Repr

/-- A field that has a column. -/
structure ColumnField where
  name : String
  type : DataType
  column : Column

namespace ColumnField

def columnType (f : ColumnField) : String :=
  f.column.columnType f.type.scalarKind?

/-- The names of the table library that the column uses. -/
def importedNames (f : ColumnField) : List String :=
  f.columnType :: (f.column.foreignTarget.map fun _ => "ForeignKey").toList

/-- The lines that describe the column. -/
def bodyBlocks (f : ColumnField) : List Block :=
  let c := f.column
  [.line (match c.length with
    | some n => f.columnType ++ "(" ++ toString n ++ "),"
    | none => f.columnType ++ ",")]
  ++ (c.foreignTarget.map fun target => Block.line
    ("ForeignKey(" ++ Literal.quote target ++ "),")).toList
  ++ (if c.primaryKey = some true then [.line "primary_key = True,"] else [])
  ++ (c.nullable.map fun b => Block.line ("nullable = " ++ Literal.truth b ++ ",")).toList
  ++ (if c.index = some true then [.line "index = True,"] else [])
  ++ (if c.unique = some true then [.line "unique = True,"] else [])
  ++ [.line ("comment = " ++ Literal.quote f.type.description)]

end ColumnField

namespace ExportedModel

def columnFields (m : ExportedModel) : List ColumnField :=
  m.model.fields.entries.filterMap fun (name, type) => type.column.map (⟨name, type, ·⟩)

def indexTexts (m : ExportedModel) : List String :=
  m.model.indexes.map fun i =>
    "Index(" ++ Literal.quote (i.resolvedName m.model.name) ++ ", "
      ++ ", ".intercalate (i.columns.map Literal.quote) ++ ", mysql_using=\"" ++ i.kind.word
      ++ "\")"

def indexBlocks (m : ExportedModel) : List Block :=
  m.indexTexts.map fun text => .line (text ++ ",")

def declarativeBlocks (m : ExportedModel) : List Block :=
  Block.colon ("class " ++ m.variableName ++ "(Base)")
    ([.line ("__tablename__ = " ++ Literal.quote m.model.name), .blank]
      ++ Block.around "__table_args__ = ("
        (m.indexBlocks
          ++ [.line ("\x7b\"comment\": " ++ Literal.quote m.model.description ++ "\x7d,")]) ")"
      ++ m.columnFields.flatMap fun f =>
        .blank :: Block.around (f.name ++ " = Column(") f.bodyBlocks ")")

def plainBlocks (m : ExportedModel) : List Block :=
  Block.around (m.variableName ++ " = Table(")
    ([.line (Literal.quote m.model.name ++ ","), .line "meta_data,"]
      ++ m.columnFields.flatMap (fun f =>
        Block.around "Column(" (.line (Literal.quote f.name ++ ",") :: f.bodyBlocks) "),")
      ++ m.indexBlocks
      ++ [.line ("comment = " ++ Literal.quote m.model.description)]) ")"

def blocks (m : ExportedModel) : TableForm → List Block
  | .declarative => m.declarativeBlocks
  | .plain => m.plainBlocks

end ExportedModel

namespace TableModule

/-- The models that are stored and whose module's name contains `filter`. -/
def selected (filter : String) (models : List ExportedModel) : List ExportedModel :=
  models.filter fun m => m.model.isPersisted && Text.occurs filter m.module

/-- The models by group, those of a group in the order of their variables. -/
def groups (models : List ExportedModel) : SortedMap String (List ExportedModel) :=
  let add (groups : SortedMap String (List ExportedModel)) (m : ExportedModel) :=
    groups.alter m.group fun ms => ms.getD [] ++ [m]
  (models.foldl add .empty).map (sortByName ExportedModel.variableName)

/-- Texts in ascending order, each once. -/
def ascending (texts : List String) : List String :=
  (SortedMap.ofList (texts.map (·, ()))).keys

def importedNames (form : TableForm) (models : List ExportedModel) : List String :=
  (match form with
    | .plain => ["Table"]
    | .declarative => [])
  ++ ["Column"]
  ++ ascending (models.flatMap fun m => m.columnFields.flatMap ColumnField.importedNames)
  ++ (if models.any fun m => !m.model.indexes.isEmpty then ["Index"] else [])

def module (apiPath : String) (form : TableForm) (models : List ExportedModel) : List Block :=
  [.line ("from sqlalchemy import " ++ ", ".intercalate (importedNames form models)),
    .line ("from " ++ apiPath ++ " import "
      ++ (match form with
        | .declarative => "Base"
        | .plain => "meta_data"))]
  ++ models.flatMap fun m => [.blank, .blank] ++ m.blocks form

def stem (group : String) : TableForm → String
  | .declarative => group
  | .plain => group ++ "_schema"

/-- Both forms, in the order in which they are written. -/
def forms : List TableForm :=
  [.declarative, .plain]

/-- The files for models: two modules for each group, and a package file that imports them all. -/
def files (apiPath filter : String) (models : List ExportedModel) : List GeneratedFile :=
  let groups := (groups (selected filter models)).entries
  let stems := groups.flatMap fun (group, _) => forms.map (stem group)
  let imports := (stems.map fun s => "from ." ++ s ++ " import *").mergeSort (· ≤ ·)
  groups.flatMap (fun (group, ms) => forms.map fun form =>
    ⟨⟨stem group form ++ ".py"⟩, Block.render (module apiPath form ms)⟩)
  ++ [⟨⟨"__init__.py"⟩, "\n".intercalate imports ++ "\n"⟩]

end TableModule

end ServiceGen

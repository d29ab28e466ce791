import ServiceGen.Schema.DataTypeJson
import ServiceGen.Text.Basic

/-!
Data models: named records whose fields may be stored in the columns of a table.
-/

namespace ServiceGen

/-- An index over columns of a table. -/
structure Index where
  name : Option String
  columns : List String
  kind : IndexKind

namespace Index

/-- The name of an index of `table`: the one that is given, or one made of the columns. -/
def resolvedName (i : Index) (table : String) : String :=
  match i.name with
  | some name => if name.isEmpty then fallback else name
  | none => fallback
where
  /-- The name for an index without one. -/
  fallback : String := "ix_" ++ table ++ "_" ++ "_".intercalate i.columns

def ofJson : Part → Reading Index :=
  Part.readRecord
    (.mk <$> .optional "name" (Part.readOptional Part.readText) none
      <*> .required "columns" (Part.readList Part.readText)
      <*> .optional "index_type" IndexKind.ofJson .btree)

def toJson (i : Index) : Json :=
  .obj (member? "name" .str i.name
    ++ [("columns", .arr (i.columns.map .str)), ("index_type", i.kind.toJson)])

end Index

structure Model where
  name : String
  description : String
  fields : Fields
  indexes : List Index

namespace Model

/-- Some field of the model has a column. -/
def isPersisted (m : Model) : Bool :=
  m.fields.values.any (·.column.isSome)

def columns (m : Model) : List (String × DataType) :=
  m.fields.entries.filter (·.2.column.isSome)

def ofJson : Part → Reading Model :=
  Part.readRecord
    (.mk <$> .required "name" Part.readText
      <*> .optional "description" Part.readText ""
      <*> .required "fields" DataType.fieldsOfJson
      <*> .optional "indexes" (Part.readList Index.ofJson) [])

def toJson (m : Model) : Json :=
  .obj [("name", .str m.name), ("description", .str m.description),
    ("fields", DataType.fieldsToJson m.fields), ("indexes", .arr (m.indexes.map Index.toJson))]

end Model

/-- A model together with the variable and the module that export it. -/
structure ExportedModel where
  variableName : String
  module : String
  model : Model

namespace ExportedModel

/-- The last part of the module's name: models with the same one are written together. -/
def group (m : ExportedModel) : String :=
  ((Text.splitAt '.' m.module).getLast?).getD ""

def ofJson : Part → Reading ExportedModel :=
  Part.readRecord
    (.mk <$> .required "var_name" Part.readText
      <*> .required "module_name" Part.readText
      <*> .required "model" Model.ofJson)

def toJson (m : ExportedModel) : Json :=
  .obj [("var_name", .str m.variableName), ("module_name", .str m.module),
    ("model", m.model.toJson)]

end ExportedModel

end ServiceGen

import ServiceGen.Proofs.Source.References
import ServiceGen.Proofs.Table.Module

/-!
What the modules for tables import.  The names in the import line are collected by a pass of their
own over the models of a group; the main statement, `TableModule.imports_exact`, says that they are
the names to which the lines below refer.
-/

namespace ServiceGen

open Naming Block

theorem Literal.getLast?_quote (s : String) : (quote s).toList.getLast? = some '\"' := by
  rw [toList_quote, List.getLast?_cons, List.getLast?_append]
  rfl

namespace ColumnField

variable {f : ColumnField}

theorem mem_importedNames_iff {name : String} :
    name ∈ f.importedNames ↔
      name = f.columnType ∨ f.column.foreignTarget.isSome ∧ name = "ForeignKey" := by
  rw [importedNames, List.mem_cons]
  cases f.column.foreignTarget <;> simp

/-- A flag that is set where it is given. -/
theorem refersToNone_of_mem_flag {line text : String} {given : Prop} [Decidable given]
    (flag : String) (htext : text = flag ++ " = " ++ "True,") (hflag : isIdentifier flag = true)
    (hline : line ∈ linesInAll (if given then [.line text] else [])) : RefersToNone line := by
  split at hline
  · obtain rfl := List.mem_singleton.mp hline
    exact refersToNone_setting flag "True," htext hflag (d := ',') (by decide) (by decide)
  · cases hline

/-- A line of a column is a setting, or it refers to the type of the column or to the class of
foreign keys. -/
theorem reference_of_mem_bodyBlocks {line : String} (hline : line ∈ linesInAll f.bodyBlocks) :
    RefersToNone line ∨ ∃ name ∈ f.importedNames, RefersTo line name ∧
      (isIdentifier f.columnType = true → RefersOnlyTo line name) := by
  rw [bodyBlocks] at hline
  simp only [linesInAll_append, List.mem_append] at hline
  rcases hline with (((((htype | hforeign) | hprimary) | hnullable) | hindex) | hunique) | hcomment
  · refine .inr ⟨f.columnType, mem_importedNames_iff.mpr (.inl rfl), ?_⟩
    obtain rfl := List.mem_singleton.mp htype
    cases f.column.length with
    | none => exact ⟨.item _, refersOnlyTo_item⟩
    | some n =>
        have hcall : f.columnType ++ "(" ++ toString n ++ ")," =
            f.columnType ++ "(" ++ (toString n ++ "),") := by simp [String.append_assoc]
        dsimp only
        rw [hcall]
        exact ⟨.call _ _, fun h => refersOnlyTo_call h _ (.inr (by simp))⟩
  · cases htarget : f.column.foreignTarget with
    | none => simp [htarget] at hforeign
    | some target =>
        rw [htarget] at hforeign
        obtain rfl := List.mem_singleton.mp hforeign
        have hcall : "ForeignKey(" ++ Literal.quote target ++ ")," =
            "ForeignKey" ++ "(" ++ (Literal.quote target ++ "),") := by
          simp [String.append_assoc]
        rw [hcall]
        exact .inr ⟨"ForeignKey", mem_importedNames_iff.mpr (.inr ⟨by simp [htarget], rfl⟩),
          .call _ _, fun _ => refersOnlyTo_call (by decide) _ (.inr (by simp))⟩
  · exact .inl (refersToNone_of_mem_flag "primary_key" (by decide) (by decide) hprimary)
  · cases hsaid : f.column.nullable with
    | none => simp [hsaid] at hnullable
    | some b =>
        rw [hsaid] at hnullable
        obtain rfl := List.mem_singleton.mp hnullable
        exact .inl (refersToNone_setting "nullable" (Literal.truth b ++ ",")
          (by simp [String.append_assoc]) (by decide) (getLast?_append_comma _) (by decide))
  · exact .inl (refersToNone_of_mem_flag "index" (by decide) (by decide) hindex)
  · exact .inl (refersToNone_of_mem_flag "unique" (by decide) (by decide) hunique)
  · obtain rfl := List.mem_singleton.mp hcomment
    exact .inl (refersToNone_setting "comment" _ rfl (by decide)
      (Literal.getLast?_quote _) (by decide))

/-- The names that a column brings in are those of its lines. -/
theorem exists_reference_of_mem_importedNames {name : String} (hname : name ∈ f.importedNames) :
    ∃ line ∈ linesInAll f.bodyBlocks, RefersTo line name := by
  rcases mem_importedNames_iff.mp hname with rfl | ⟨hforeign, rfl⟩
  · cases hlength : f.column.length with
    | none => exact ⟨f.columnType ++ ",", by simp [bodyBlocks, hlength], .item _⟩
    | some n =>
        refine ⟨f.columnType ++ "(" ++ (toString n ++ "),"), ?_, .call _ _⟩
        simp [bodyBlocks, hlength, String.append_assoc]
  · obtain ⟨target, htarget⟩ := Option.isSome_iff_exists.mp hforeign
    refine ⟨"ForeignKey" ++ "(" ++ (Literal.quote target ++ "),"), ?_, .call _ _⟩
    simp [bodyBlocks, htarget, ← String.append_assoc]

end ColumnField

/-- What the declarative classes or the plain tables share. -/
def TableForm.sharedName : TableForm → String
  | .declarative => "Base"
  | .plain => "meta_data"

namespace ExportedModel

variable {m : ExportedModel} {form : TableForm}

/-- The definition of a model needs a name of the table library. -/
inductive Needs (m : ExportedModel) (form : TableForm) : String → Prop
  | column : Needs m form "Column"
  | table (hform : form = .plain) : Needs m form "Table"
  | columnType {name : String} {type : DataType} {column : Column}
      (hfield : (name, type) ∈ m.model.fields.entries) (hcolumn : type.column = some column) :
      Needs m form (column.columnType type.scalarKind?)
  | foreignKey {name target : String} {type : DataType} {column : Column}
      (hfield : (name, type) ∈ m.model.fields.entries) (hcolumn : type.column = some column)
      (hforeign : column.foreign = some target) (htarget : target ≠ "") :
      Needs m form "ForeignKey"
  | index (hindexes : m.model.indexes ≠ []) : Needs m form "Index"

/-- Generated code can use the names of the model as they stand. -/
structure Identifiable (m : ExportedModel) : Prop where
  variableName : isIdentifier m.variableName = true
  fields : ∀ f ∈ m.columnFields, isIdentifier f.name = true
  columnTypes : ∀ f ∈ m.columnFields, isIdentifier f.columnType = true

theorem mem_columnFields_iff {f : ColumnField} :
    f ∈ m.columnFields ↔
      (f.name, f.type) ∈ m.model.fields.entries ∧ f.type.column = some f.column := by
  rw [columnFields, List.mem_filterMap]
  constructor
  · rintro ⟨⟨name, type⟩, hentry, hf⟩
    obtain ⟨column, hcolumn, rfl⟩ := Option.map_eq_some_iff.mp hf
    exact ⟨hentry, hcolumn⟩
  · rintro ⟨hentry, hcolumn⟩
    exact ⟨_, hentry, by simp [hcolumn]⟩

theorem exists_mem_columnFields (hm : m.model.isPersisted = true) : ∃ f, f ∈ m.columnFields := by
  obtain ⟨type, htype, hcolumn⟩ := List.any_eq_true.mp hm
  obtain ⟨⟨name, _⟩, hentry, rfl⟩ := List.mem_map.mp htype
  obtain ⟨column, hcolumn⟩ := Option.isSome_iff_exists.mp hcolumn
  exact ⟨⟨name, _, column⟩, mem_columnFields_iff.mpr ⟨hentry, hcolumn⟩⟩

theorem isSome_foreignTarget_iff {c : Column} :
    c.foreignTarget.isSome ↔ ∃ target, c.foreign = some target ∧ target ≠ "" := by
  rw [Option.isSome_iff_exists]
  simp [Column.foreignTarget, Option.filter_eq_some_iff]

/-- What is needed are the names that the columns bring in, and those of columns, tables and
indexes. -/
theorem needs_iff {name : String} :
    m.Needs form name ↔
      name = "Column" ∨ form = .plain ∧ name = "Table" ∨
        (∃ f ∈ m.columnFields, name ∈ f.importedNames) ∨
        m.model.indexes ≠ [] ∧ name = "Index" := by
  constructor
  · rintro (_ | hform | ⟨hfield, hcolumn⟩ | ⟨hfield, hcolumn, hforeign, htarget⟩ | hindexes)
    · exact .inl rfl
    · exact .inr (.inl ⟨hform, rfl⟩)
    · have hf := mem_columnFields_iff (f := ⟨_, _, _⟩) |>.mpr ⟨hfield, hcolumn⟩
      exact .inr (.inr (.inl ⟨_, hf, ColumnField.mem_importedNames_iff.mpr (.inl rfl)⟩))
    · have hf := mem_columnFields_iff (f := ⟨_, _, _⟩) |>.mpr ⟨hfield, hcolumn⟩
      have htaken := isSome_foreignTarget_iff.mpr ⟨_, hforeign, htarget⟩
      exact .inr (.inr (.inl ⟨_, hf, ColumnField.mem_importedNames_iff.mpr (.inr ⟨htaken, rfl⟩)⟩))
    · exact .inr (.inr (.inr ⟨hindexes, rfl⟩))
  · rintro (rfl | ⟨hform, rfl⟩ | ⟨f, hf, hname⟩ | ⟨hindexes, rfl⟩)
    · exact .column
    · exact .table hform
    · obtain ⟨hfield, hcolumn⟩ := mem_columnFields_iff.mp hf
      rcases ColumnField.mem_importedNames_iff.mp hname with rfl | ⟨hforeign, rfl⟩
      · exact .columnType hfield hcolumn
      · obtain ⟨target, hforeign, htarget⟩ := isSome_foreignTarget_iff.mp hforeign
        exact .foreignKey hfield hcolumn hforeign htarget
    · exact .index hindexes

/-- What the lines of a definition refer to. -/
def Refers (m : ExportedModel) (form : TableForm) (line : String) : Prop :=
  ∃ name, (m.Needs form name ∨ name = form.sharedName) ∧ RefersTo line name ∧
    (m.Identifiable → RefersOnlyTo line name)

theorem exists_call_of_mem_indexBlocks {line : String} (hline : line ∈ linesInAll m.indexBlocks) :
    m.model.indexes ≠ [] ∧ ∃ arguments, line = "Index" ++ "(" ++ arguments ∧
      arguments.toList.getLast? = some ',' := by
  rw [indexBlocks, linesInAll_map_line] at hline
  obtain ⟨text, htext, rfl⟩ := List.mem_map.mp hline
  obtain ⟨i, hi, rfl⟩ := List.mem_map.mp htext
  refine ⟨List.ne_nil_of_mem hi, Literal.quote (i.resolvedName m.model.name) ++ ", "
    ++ ", ".intercalate (i.columns.map Literal.quote) ++ ", mysql_using=\"" ++ i.kind.word
    ++ "\")" ++ ",", ?_, getLast?_append_comma _⟩
  simp [← String.append_assoc]

theorem refers_of_mem_indexBlocks {line : String} (hline : line ∈ linesInAll m.indexBlocks) :
    m.Refers form line := by
  obtain ⟨hindexes, arguments, rfl, hlast⟩ := exists_call_of_mem_indexBlocks hline
  exact ⟨"Index", .inl (.index hindexes), .call _ _,
    fun _ => refersOnlyTo_call (by decide) _ (.inr hlast)⟩

/-- A line of a column, whose opening line is apart. -/
theorem refers_of_mem_bodyBlocks {f : ColumnField} (hf : f ∈ m.columnFields) {line : String}
    (hline : line ∈ linesInAll f.bodyBlocks) : RefersToNone line ∨ m.Refers form line := by
  refine (ColumnField.reference_of_mem_bodyBlocks hline).imp_right ?_
  rintro ⟨name, hname, hrefers, honly⟩
  exact ⟨name, .inl (needs_iff.mpr (.inr (.inr (.inl ⟨f, hf, hname⟩)))), hrefers,
    fun h => honly (h.columnTypes f hf)⟩

theorem refers_of_mem_declarativeBlocks {line : String}
    (hline : line ∈ linesInAll m.declarativeBlocks) :
    RefersToNone line ∨ m.Refers .declarative line := by
  simp only [declarativeBlocks, linesInAll_colon, linesInAll_append, linesInAll_around,
    linesInAll_line, linesInAll_blank, linesInAll_nil, linesInAll_flatMap, List.mem_cons,
    List.mem_append, List.mem_flatMap, List.not_mem_nil, or_false] at hline
  rcases hline with rfl | (rfl | (rfl | hindex | rfl) | rfl) | ⟨f, hf, (rfl | hcolumn) | rfl⟩
  · refine .inr ⟨"Base", .inr rfl, ?_⟩
    have hheader : "class " ++ m.variableName ++ "(Base)" ++ ":" =
        "class " ++ m.variableName ++ "(" ++ "Base" ++ "):" := by simp [String.append_assoc]
    rw [hheader]
    exact ⟨.extended _ _, fun _ => refersOnlyTo_extended _ (by decide)⟩
  · exact .inl (refersToNone_setting "__tablename__" _ rfl (by decide)
      (Literal.getLast?_quote _) (by decide))
  · exact .inl (refersToNone_tuple "__table_args__" (by decide))
  · exact .inr (refers_of_mem_indexBlocks hindex)
  · have hline : ("\x7b\"comment\": " ++ Literal.quote m.model.description ++ "\x7d,").toList =
        '\x7b' :: ("\"comment\": " ++ Literal.quote m.model.description ++ "\x7d,").toList := by
      simp
    refine .inl (refersToNone_of_symbol hline (by decide) (d := ',') ?_ (by decide))
    rw [String.toList_append, List.getLast?_append]
    rfl
  · exact .inl (refersToNone_of_symbol (c := ')') (d := ')') rfl (by decide) rfl (by decide))
  · refine .inr ⟨"Column", .inl .column, ?_⟩
    have hassigned : f.name ++ " = Column(" = f.name ++ " = " ++ "Column" ++ "(" := by
      simp [String.append_assoc]
    rw [hassigned]
    exact ⟨.assigned _ _, fun h => refersOnlyTo_assigned (h.fields f hf) (by decide)⟩
  · exact refers_of_mem_bodyBlocks hf hcolumn
  · exact .inl (refersToNone_of_symbol (c := ')') (d := ')') rfl (by decide) rfl (by decide))

theorem refers_of_mem_plainBlocks {line : String} (hline : line ∈ linesInAll m.plainBlocks) :
    RefersToNone line ∨ m.Refers .plain line := by
  have hquoted : ∀ text, RefersToNone (Literal.quote text ++ ",") := fun text =>
    refersToNone_of_symbol (by rw [String.toList_append, Literal.toList_quote]; rfl) (by decide)
      (getLast?_append_comma _) (by decide)
  simp only [plainBlocks, linesInAll_append, linesInAll_around, linesInAll_line, linesInAll_nil,
    linesInAll_flatMap, List.mem_cons, List.mem_append, List.mem_flatMap, List.not_mem_nil,
    or_false] at hline
  rcases hline with
    (rfl | (((rfl | rfl) | ⟨f, hf, (rfl | rfl | hcolumn) | rfl⟩) | hindex) | rfl) | rfl
  · refine .inr ⟨"Table", .inl (.table rfl), ?_⟩
    have hassigned : m.variableName ++ " = Table(" =
        m.variableName ++ " = " ++ "Table" ++ "(" := by simp [String.append_assoc]
    rw [hassigned]
    exact ⟨.assigned _ _, fun h => refersOnlyTo_assigned h.variableName (by decide)⟩
  · exact .inl (hquoted _)
  · have honly : RefersOnlyTo ("meta_data" ++ ",") "meta_data" := refersOnlyTo_item (by decide)
    exact .inr ⟨"meta_data", .inr rfl, .item "meta_data", fun _ => honly⟩
  · have honly : RefersOnlyTo ("Column" ++ "(" ++ "") "Column" :=
      refersOnlyTo_call (by decide) "" (.inl rfl)
    exact .inr ⟨"Column", .inl .column, .call "Column" "", fun _ => honly⟩
  · exact .inl (hquoted _)
  · exact refers_of_mem_bodyBlocks hf hcolumn
  · exact .inl (refersToNone_of_symbol (c := ')') (d := ',') rfl (by decide) rfl (by decide))
  · exact .inr (refers_of_mem_indexBlocks hindex)
  · exact .inl (refersToNone_setting "comment" _ rfl (by decide)
      (Literal.getLast?_quote _) (by decide))
  · exact .inl (refersToNone_of_symbol (c := ')') (d := ')') rfl (by decide) rfl (by decide))

theorem refers_of_mem_blocks {line : String} (hline : line ∈ linesInAll (m.blocks form)) :
    RefersToNone line ∨ m.Refers form line := by
  cases form with
  | declarative => exact refers_of_mem_declarativeBlocks hline
  | plain => exact refers_of_mem_plainBlocks hline

theorem subset_lines_of_mem_columnFields {f : ColumnField} (hf : f ∈ m.columnFields) :
    linesInAll f.bodyBlocks ⊆ linesInAll (m.blocks form) := by
  intro line hline
  cases form <;>
    simp only [blocks, declarativeBlocks, plainBlocks, linesInAll_colon, linesInAll_append,
      linesInAll_around, linesInAll_line, linesInAll_blank, linesInAll_flatMap, List.mem_cons,
      List.mem_append, List.mem_flatMap] <;>
    grind

theorem indexLines_subset : linesInAll m.indexBlocks ⊆ linesInAll (m.blocks form) := by
  intro line hline
  cases form <;> simp [blocks, declarativeBlocks, plainBlocks, hline]

/-- The definition of a model uses every name that it needs, and what the tables share. -/
theorem exists_reference (hm : m.model.isPersisted = true) {name : String}
    (hname : m.Needs form name ∨ name = form.sharedName) :
    ∃ line ∈ linesInAll (m.blocks form), RefersTo line name := by
  rcases hname with hneeds | rfl
  · rcases needs_iff.mp hneeds with rfl | ⟨rfl, rfl⟩ | ⟨f, hf, hname⟩ | ⟨hindexes, rfl⟩
    · obtain ⟨f, hf⟩ := exists_mem_columnFields hm
      cases form with
      | declarative =>
          refine ⟨f.name ++ " = " ++ "Column" ++ "(", ?_, .assigned _ _⟩
          simp only [blocks, declarativeBlocks, linesInAll_colon, linesInAll_append,
            linesInAll_flatMap, List.mem_cons, List.mem_append, List.mem_flatMap]
          exact .inr (.inr ⟨f, hf, by simp [String.append_assoc]⟩)
      | plain =>
          refine ⟨"Column" ++ "(" ++ "", ?_, .call _ _⟩
          simp only [blocks, plainBlocks, linesInAll_around, linesInAll_append,
            linesInAll_flatMap, List.mem_cons, List.mem_append, List.mem_flatMap]
          exact .inl (.inr (.inl (.inl (.inr ⟨f, hf, by simp⟩))))
    · refine ⟨m.variableName ++ " = " ++ "Table" ++ "(", ?_, .assigned _ _⟩
      simp [blocks, plainBlocks, String.append_assoc]
    · obtain ⟨line, hline, hrefers⟩ := ColumnField.exists_reference_of_mem_importedNames hname
      exact ⟨line, subset_lines_of_mem_columnFields hf hline, hrefers⟩
    · have hlines : linesInAll m.indexBlocks ≠ [] := by
        rw [indexBlocks, linesInAll_map_line, indexTexts]
        simpa using hindexes
      obtain ⟨line, hline⟩ := List.exists_mem_of_ne_nil _ hlines
      obtain ⟨-, arguments, rfl, -⟩ := exists_call_of_mem_indexBlocks hline
      exact ⟨_, indexLines_subset hline, .call _ _⟩
  · cases form with
    | declarative =>
        refine ⟨"class " ++ m.variableName ++ "(" ++ "Base" ++ "):", ?_, .extended _ _⟩
        simp [blocks, declarativeBlocks, String.append_assoc]
    | plain =>
        refine ⟨"meta_data" ++ ",", ?_, .item _⟩
        simp [blocks, plainBlocks]

end ExportedModel

namespace TableModule

variable {form : TableForm} {models : List ExportedModel}

theorem mem_ascending_iff {text : String} {texts : List String} :
    text ∈ ascending texts ↔ text ∈ texts := by
  rw [ascending, SortedMap.mem_keys_ofList, List.map_map]
  simp

/-- The pass over the models collects what their definitions need. -/
theorem mem_importedNames_iff (hmodels : models ≠ []) {name : String} :
    name ∈ importedNames form models ↔ ∃ m ∈ models, m.Needs form name := by
  obtain ⟨m, hm⟩ := List.exists_mem_of_ne_nil _ hmodels
  have hindex : name ∈ (if models.any fun m => !m.model.indexes.isEmpty then ["Index"] else []) ↔
      ∃ m ∈ models, m.model.indexes ≠ [] ∧ name = "Index" := by
    have hany : (models.any fun m => !m.model.indexes.isEmpty) = true ↔
        ∃ m ∈ models, m.model.indexes ≠ [] := by simp
    by_cases hsome : ∃ m ∈ models, m.model.indexes ≠ []
    · rw [if_pos (hany.mpr hsome), List.mem_singleton]
      exact ⟨fun hname => hsome.imp fun m h => ⟨h.1, h.2, hname⟩, fun ⟨_, _, _, hname⟩ => hname⟩
    · rw [if_neg (hany.not.mpr hsome)]
      exact ⟨nofun, fun ⟨m, hm, hne, _⟩ => absurd ⟨m, hm, hne⟩ hsome⟩
  have hparts : name ∈ importedNames form models ↔
      (form = .plain ∧ name = "Table") ∨ name = "Column" ∨
        (∃ m ∈ models, ∃ f ∈ m.columnFields, name ∈ f.importedNames) ∨
        ∃ m ∈ models, m.model.indexes ≠ [] ∧ name = "Index" := by
    rw [← hindex]
    cases form <;>
      simp only [importedNames, List.mem_append, List.mem_singleton, List.not_mem_nil,
        mem_ascending_iff, List.mem_flatMap] <;>
      simp [or_assoc]
  rw [hparts]
  simp only [ExportedModel.needs_iff]
  constructor
  · rintro (⟨hform, rfl⟩ | rfl | ⟨m, hm, f, hf, hname⟩ | ⟨m, hm, hne, rfl⟩)
    · exact ⟨m, hm, .inr (.inl ⟨hform, rfl⟩)⟩
    · exact ⟨m, hm, .inl rfl⟩
    · exact ⟨m, hm, .inr (.inr (.inl ⟨f, hf, hname⟩))⟩
    · exact ⟨m, hm, .inr (.inr (.inr ⟨hne, rfl⟩))⟩
  · rintro ⟨m, hm, rfl | ⟨hform, rfl⟩ | ⟨f, hf, hname⟩ | ⟨hne, rfl⟩⟩
    · exact .inr (.inl rfl)
    · exact .inl ⟨hform, rfl⟩
    · exact .inr (.inr (.inl ⟨m, hm, f, hf, hname⟩))
    · exact .inr (.inr (.inr ⟨m, hm, hne, rfl⟩))

namespace Written

/-- The lines of a module behind its imports. -/
def body (w : Written) : List Block :=
  w.models.flatMap fun m => [.blank, .blank] ++ m.blocks w.form

theorem mem_body_iff {w : Written} {line : String} :
    line ∈ linesInAll w.body ↔ ∃ m ∈ w.models, line ∈ linesInAll (m.blocks w.form) := by
  simp [body, linesInAll_flatMap]

theorem contents_file (apiPath : String) (w : Written) :
    (w.file apiPath).contents =
      "from sqlalchemy import " ++ ", ".intercalate (importedNames w.form w.models) ++ "\n"
        ++ ("from " ++ apiPath ++ " import " ++ w.form.sharedName ++ "\n" ++ render w.body) := by
  have hblocks : w.blocks apiPath =
      .line ("from sqlalchemy import " ++ ", ".intercalate (importedNames w.form w.models))
        :: .line ("from " ++ apiPath ++ " import " ++ w.form.sharedName) :: w.body := by
    obtain ⟨group, form, ms⟩ := w
    cases form <;> rfl
  rw [file, hblocks, render_line, render_line]

end Written

/-- What is written for a group are models of it, at least one. -/
theorem models_of_mem_written {filter : String} {w : Written}
    (hw : w ∈ written (selected filter models)) :
    w.models ≠ [] ∧ ∀ m ∈ w.models, m.model.isPersisted = true := by
  obtain ⟨hgroup, hmodels⟩ := mem_written_iff.mp hw
  rw [hmodels]
  constructor
  · obtain ⟨m, hm, heq⟩ := List.mem_map.mp hgroup
    exact List.ne_nil_of_mem (mem_ofGroup_iff.mpr ⟨hm, heq⟩)
  · intro m hm
    have hselected := (mem_ofGroup_iff.mp hm).1
    simp only [selected, List.mem_filter, Bool.and_eq_true] at hselected
    exact hselected.2.1

/-- What a module imports is what it needs, and what it uses: every name that it imports is used,
and a line that uses an identifier uses one that is imported. -/
structure Written.ImportsExactly (w : Written) : Prop where
  needed : ∀ name, name ∈ importedNames w.form w.models ↔ ∃ m ∈ w.models, m.Needs w.form name
  used : ∀ name, name ∈ importedNames w.form w.models ∨ name = w.form.sharedName →
    ∃ line ∈ linesInAll w.body, RefersTo line name
  imported : ∀ line ∈ linesInAll w.body, RefersToNone line ∨
    ∃ name, (name ∈ importedNames w.form w.models ∨ name = w.form.sharedName) ∧
      RefersTo line name ∧ ((∀ m ∈ w.models, m.Identifiable) → RefersOnlyTo line name)

/-- Every module for models begins with the import from the table library, and what is imported
there is exactly what the rest of the module uses. -/
theorem imports_exact (apiPath filter : String) (models : List ExportedModel) :
    (∃ imports, files apiPath filter models =
        (written (selected filter models)).map (·.file apiPath) ++ [⟨⟨"__init__.py"⟩, imports⟩]) ∧
      ∀ w ∈ written (selected filter models),
        (w.file apiPath).contents =
            "from sqlalchemy import " ++ ", ".intercalate (importedNames w.form w.models) ++ "\n"
              ++ ("from " ++ apiPath ++ " import " ++ w.form.sharedName ++ "\n" ++ render w.body) ∧
          w.ImportsExactly := by
  refine ⟨files_eq apiPath filter models, fun w hw => ⟨w.contents_file apiPath, ?_⟩⟩
  obtain ⟨hmodels, hpersisted⟩ := models_of_mem_written hw
  obtain ⟨first, hfirst⟩ := List.exists_mem_of_ne_nil _ hmodels
  refine ⟨fun name => mem_importedNames_iff hmodels, ?_, ?_⟩
  · intro name hname
    have hneeds : ∃ m ∈ w.models, m.Needs w.form name ∨ name = w.form.sharedName := by
      rcases hname with hname | hshared
      · obtain ⟨m, hm, hneeds⟩ := (mem_importedNames_iff hmodels).mp hname
        exact ⟨m, hm, .inl hneeds⟩
      · exact ⟨first, hfirst, .inr hshared⟩
    obtain ⟨m, hm, hneeds⟩ := hneeds
    obtain ⟨line, hline, hrefers⟩ := ExportedModel.exists_reference (hpersisted m hm) hneeds
    exact ⟨line, Written.mem_body_iff.mpr ⟨m, hm, hline⟩, hrefers⟩
  · intro line hline
    obtain ⟨m, hm, hline⟩ := Written.mem_body_iff.mp hline
    refine (ExportedModel.refers_of_mem_blocks hline).imp_right ?_
    rintro ⟨name, hname, hrefers, honly⟩
    have himported := hname.imp_left fun hneeds =>
      (mem_importedNames_iff hmodels).mpr ⟨m, hm, hneeds⟩
    exact ⟨name, himported, hrefers, fun hall => honly (hall m hm)⟩

end TableModule

namespace TableImportsWitness

open TableModule

/-- A column of which only the target of its foreign key and its own type are said. -/
def column (foreign typeName : Option String) : Column :=
  ⟨none, none, none, none, foreign, none, typeName⟩

/-- Accounts, which have an index, and entries, which refer to them.  The entries have a field
without a column, and a foreign key without a target. -/
def ledger : List ExportedModel :=
  let field (kind : Scalar) (column : Column) : DataType :=
    { DataType.scalar kind with column := some column }
  [⟨"Account", "bank.ledger", ⟨"account", "", ⟨[("id", field .int (column none none))]⟩,
      [⟨none, ["id"], .btree⟩]⟩⟩,
    ⟨"Entry", "bank.ledger", ⟨"entry", "", ⟨[("draft", .scalar .bool),
      ("owner", field .int (column (some "account.id") none)),
      ("note", field .string (column (some "") (some "Text")))]⟩, []⟩⟩]

def tables : Written :=
  ⟨"ledger", .plain, ledger⟩

theorem tables_import_exactly :
    importedNames .plain ledger = ["Table", "Column", "ForeignKey", "Integer", "Text", "Index"] ∧
      tables ∈ written (selected "" ledger) ∧ (∀ m ∈ ledger, m.Identifiable) ∧
      tables.ImportsExactly := by
  have hgroup : ofGroup ledger "ledger" = ledger :=
    List.mergeSort_of_pairwise (by decide +kernel)
  have htables : tables ∈ written (selected "" ledger) := by
    have hselected : selected "" ledger = ledger := rfl
    rw [hselected, mem_written_iff]
    exact ⟨by decide, hgroup.symm⟩
  have hidentifiable : ∀ m ∈ ledger, m.Identifiable := by
    intro m hm
    rcases hm with _ | ⟨_, _ | ⟨_, ⟨⟩⟩⟩ <;> exact ⟨by decide, by decide, by decide⟩
  exact ⟨by decide, htables, hidentifiable, ((imports_exact "src" "" ledger).2 tables htables).2⟩

end TableImportsWitness

end ServiceGen

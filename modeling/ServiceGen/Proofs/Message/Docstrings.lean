import ServiceGen.Proofs.Message.FieldNames
import ServiceGen.Proofs.Message.WireMethods
import ServiceGen.Proofs.Source.Occurrences

/-!
The docstrings of data classes.  The code of a class has no three quotes in a row: the names in it
are made of letters, digits and underscores, and texts in it are escaped.  Descriptions are not, so
a docstring is closed where its class closes it unless a description has three quotes in a row.
-/

namespace ServiceGen

open Text Literal

namespace TypePath

/-- The names of a path are made of letters, digits and underscores. -/
structure Spelled (p : TypePath) : Prop where
  service : ∀ c ∈ p.service.toList, Naming.IsWordChar c
  operation : ∀ c ∈ p.operation.toList, Naming.IsWordChar c
  nested : ∀ name ∈ p.nested, ∀ c ∈ name.toList, Naming.IsWordChar c

theorem isWordChar_of_mem_pretty {name : String} (hname : Naming.isIdentifier name = true) :
    ∀ c ∈ (Naming.pretty name).toList, Naming.IsWordChar c :=
  Naming.isWordChar_of_mem_pretty (Naming.isWordChar_of_isIdentifier hname)

theorem spelled_top {service operation : String} (hservice : Naming.isIdentifier service = true)
    (hoperation : Naming.isIdentifier operation = true) (container : Container) :
    (top service operation container).Spelled where
  service := isWordChar_of_mem_pretty hservice
  operation := isWordChar_of_mem_pretty hoperation
  nested := List.forall_mem_nil _

variable {p : TypePath}

theorem Spelled.child (h : p.Spelled) {field : String}
    (hfield : Naming.isIdentifier field = true) : (p.child field).Spelled where
  service := h.service
  operation := h.operation
  nested := by
    intro name hname
    rcases List.mem_append.mp hname with hname | hname
    · exact h.nested name hname
    · rw [List.mem_singleton.mp hname]
      exact isWordChar_of_mem_pretty hfield

theorem isWordChar_of_mem_word (container : Container) :
    ∀ c ∈ container.word.toList, Naming.IsWordChar c := by
  unfold Naming.IsWordChar
  cases container <;> exact List.all_iff_forall_prop.mp (by decide)

theorem Spelled.isWordChar_of_mem_className (h : p.Spelled) :
    ∀ c ∈ p.className.toList, Naming.IsWordChar c := by
  intro c hc
  rw [className, String.toList_append, String.toList_append, List.mem_append, List.mem_append,
    toList_intercalate_nothing, List.mem_flatMap] at hc
  rcases hc with (hc | hc) | ⟨name, hname, hc⟩
  · exact h.operation c hc
  · exact isWordChar_of_mem_word p.container c hc
  · exact h.nested name hname c hc

theorem Spelled.quotes_className (h : p.Spelled) : quotes p.className = 0 :=
  quotes_of_isWordChar h.isWordChar_of_mem_className

/-- The names of a wire name are joined by dots. -/
theorem Spelled.quotes_wireName (h : p.Spelled) : quotes p.wireName = 0 := by
  rw [quotes, List.count_eq_zero, wireName]
  intro hmem
  rcases Naming.mem_intercalate hmem with hdot | ⟨name, hname, hmem⟩
  · revert hdot
    decide
  · have hword : ∀ c ∈ name.toList, Naming.IsWordChar c := by
      rcases List.mem_cons.mp hname with rfl | hname
      · intro c hc
        rw [messageName, String.toList_append, String.toList_append, List.mem_append,
          List.mem_append] at hc
        rcases hc with (hc | hc) | hc
        · exact h.service c hc
        · exact h.operation c hc
        · exact isWordChar_of_mem_word p.container c hc
      · exact h.nested name hname
    cases hword _ hmem

end TypePath

namespace Contents

/-- Below identifiers all paths are spelled with identifiers. -/
theorem spelled_of_mem_ofType {t : DataType} (h : t.WellFormed) :
    ∀ path, path.Spelled → ∀ c ∈ ofType path t, c.path.Spelled := by
  induction h with
  | list hkind _ _ _ ih =>
      intro path hpath c hc
      rw [ofType_list path hkind] at hc
      exact ih path hpath c hc
  | dict hkind hnames _ ih =>
      intro path hpath c hc
      rw [ofType_dict path hkind, withBelow, List.mem_cons] at hc
      rcases hc with rfl | hc
      · exact hpath
      · rw [below_eq_flatMap] at hc
        obtain ⟨field, hfield, hc⟩ := List.mem_flatMap.mp hc
        exact ih field hfield _ (hpath.child (hnames field hfield)) c hc
  | _ hkind => simp [ofType_eq_nil, DataType.isDict, DataType.isList, hkind]

theorem spelled_of_mem_withBelow {outer : Contents} (houter : outer.WellFormed)
    (hnamed : outer.Named) (hpath : outer.path.Spelled) :
    ∀ c ∈ outer.withBelow, c.path.Spelled := by
  intro c hc
  rcases List.mem_cons.mp hc with rfl | hc
  · exact hpath
  · rw [below_eq_flatMap] at hc
    obtain ⟨field, hfield, hc⟩ := List.mem_flatMap.mp hc
    exact spelled_of_mem_ofType (houter field hfield) _ (hpath.child (hnamed field hfield)) c hc

end Contents

/-- The service, its operations and their arguments have identifiers for names. -/
structure Service.NamedByIdentifiers (s : Service) : Prop where
  service : Naming.isIdentifier s.name = true
  operations : ∀ o ∈ s.operations, Naming.isIdentifier o.name = true
  arguments : ∀ o ∈ s.operations, ∀ a ∈ o.arguments, Naming.isIdentifier a.name = true

theorem Contents.spelled_of_mem_ofService {s : Service} (hs : s.WellFormed)
    (hnames : s.NamedByIdentifiers) : ∀ c ∈ ofService s, c.path.Spelled := by
  intro c hc
  obtain ⟨o, ho, hc⟩ := List.mem_flatMap.mp hc
  have hpath := TypePath.spelled_top hnames.service (hnames.operations o ho)
  have hnamed : (argument s.name o).Named := by
    intro field hfield
    obtain ⟨a, ha, rfl⟩ := List.mem_map.mp hfield
    exact hnames.arguments o ho a ha
  rcases List.mem_append.mp hc with hc | hc
  · exact spelled_of_mem_withBelow (Operation.wellFormed_argument (hs o ho) s.name) hnamed
      (hpath .argument) c hc
  · exact spelled_of_mem_withBelow (Operation.wellFormed_result (hs o ho) s.name)
      (named_result (hs o ho) s.name) (hpath .result) c hc

namespace DataClass

/-- The names in a class are made of letters, digits and underscores. -/
structure Spelled (c : DataClass) : Prop where
  path : c.path.Spelled
  fields : ∀ field ∈ c.fields.entries, Naming.isIdentifier field.1 = true

theorem spelled_of_mem_ofService {s : Service} (hs : s.WellFormed)
    (hnames : s.NamedByIdentifiers) {c : DataClass} (hc : c ∈ ofService s) : c.Spelled := by
  have hsent := (Contents.forall_sent_isIdentifier_iff hs).mpr
    fun o ho a ha _ => hnames.arguments o ho a ha
  have houtline := (outline_ofService_perm hs).subset (List.mem_map_of_mem hc)
  obtain ⟨contents, hcontents, heq⟩ := List.mem_map.mp houtline
  obtain ⟨hpath, -⟩ := Prod.mk.inj heq
  refine ⟨?_, ?_⟩
  · rw [← hpath]
    exact Contents.spelled_of_mem_ofService hs hnames contents hcontents
  · exact (forall_parameterName_iff (P := fun name => Naming.isIdentifier name = true) hs).mpr
      hsent c hc

section Code

theorem quotes_typeName (t : DataType) : quotes t.typeName = 0 := by
  have hscalar : ∀ k : Scalar, quotes k.typeName = 0 := by
    intro k
    cases k <;> rfl
  unfold DataType.typeName
  split
  · rfl
  · rfl
  · cases t.scalarKind? with
    | none => rfl
    | some k => exact hscalar k

variable {path : TypePath} {name : String}

theorem quotes_name (hname : Naming.isIdentifier name = true) : quotes name = 0 :=
  quotes_of_isWordChar (Naming.isWordChar_of_isIdentifier hname)

theorem quotes_fieldTypeName (hpath : path.Spelled) (hname : Naming.isIdentifier name = true)
    (t : DataType) : quotes (t.fieldTypeName path name) = 0 := by
  have hchild := (hpath.child hname).quotes_className
  unfold DataType.fieldTypeName
  split
  · rename_i element _
    cases element.isDict with
    | true =>
        simp only [if_true, quotes_append, hchild]
        rfl
    | false =>
        simp only [Bool.false_eq_true, if_false, quotes_append, quotes_typeName]
        rfl
  · exact hchild
  · exact quotes_typeName t

theorem occurrences_parameterBlock (hpath : path.Spelled)
    (hname : Naming.isIdentifier name = true) (t : DataType) :
    occurrencesIn tripleQuote (Block.linesIn (parameterBlock path name t)) = 0 := by
  have hdefault : occurrences tripleQuote
      (if t.isSingleValue then t.defaultLiteral else "None").toList = 0 := by
    split
    · exact t.occurrences_defaultLiteral
    · decide
  have hfront : quotes (name ++ ": " ++ t.fieldTypeName path name ++ " = ") < 3 := by
    simp only [quotes_append, quotes_name hname, quotes_fieldTypeName hpath hname]
    decide
  rw [parameterBlock, Block.linesIn, occurrencesIn_singleton]
  exact occurrences_around_literal hfront rfl hdefault rfl

theorem occurrences_initialBlock (hpath : path.Spelled)
    (hname : Naming.isIdentifier name = true) (t : DataType) :
    occurrencesIn tripleQuote (Block.linesIn (initialBlock path name t)) = 0 := by
  have hchild := (hpath.child hname).quotes_className
  rw [initialBlock, Block.linesIn, occurrencesIn_singleton]
  refine occurrences_of_few ?_
  simp only [quotes_append, quotes_name hname]
  split
  · decide
  · simp only [quotes_append, hchild]
    decide
  · decide

theorem occurrences_conversionBlocks (hname : Naming.isIdentifier name = true)
    (how : Conversion) :
    occurrencesIn tripleQuote (Block.linesInAll (conversionBlocks name how)) = 0 := by
  refine occurrencesIn_of_few ?_
  cases how with
  | append convertsElements =>
      rw [conversionBlocks, Block.linesInAll_colon, Block.linesInAll_line, Block.linesInAll_nil]
      simp only [List.forall_mem_cons, quotes_append, quotes_name hname]
      cases convertsElements <;> decide
  | merge =>
      rw [conversionBlocks, Block.linesInAll_line, Block.linesInAll_nil]
      simp only [List.forall_mem_cons, quotes_append, quotes_name hname]
      decide
  | assign =>
      rw [conversionBlocks, Block.linesInAll_line, Block.linesInAll_nil]
      simp only [List.forall_mem_cons, quotes_append, quotes_name hname]
      decide

/-- No line that reads a field has more quotes than those around its name, a literal apart. -/
theorem occurrences_readBlocks (hpath : path.Spelled) (hname : Naming.isIdentifier name = true)
    (source : FieldSource) (t : DataType) :
    occurrencesIn tripleQuote (Block.linesInAll (readBlocks path source name t)) = 0 := by
  have hchild := (hpath.child hname).quotes_className
  unfold readBlocks
  split
  · rename_i element _
    refine occurrencesIn_of_few ?_
    rw [Block.linesInAll_line, Block.linesInAll_colon]
    cases source <;> cases element.isDict <;>
      simp only [FieldSource.value, FieldSource.method, Bool.false_eq_true, if_true, if_false,
        Block.linesInAll_line, Block.linesInAll_nil, List.forall_mem_cons, quotes_append,
        quotes_name hname, hchild] <;> decide
  · refine occurrencesIn_of_few ?_
    rw [Block.linesInAll_line, Block.linesInAll_nil]
    cases source <;>
      simp only [FieldSource.value, FieldSource.method, List.forall_mem_cons, quotes_append,
        quotes_name hname] <;> decide
  · split
    · have hfront : quotes ("self." ++ name ++ " = self.choose_default(" ++ source.value name ++
          ", ") < 3 := by
        cases source <;> simp only [FieldSource.value, quotes_append, quotes_name hname] <;> decide
      rw [Block.linesInAll_line, Block.linesInAll_nil, occurrencesIn_singleton]
      exact occurrences_around_literal hfront rfl t.occurrences_defaultLiteral rfl
    · refine occurrencesIn_of_few ?_
      rw [Block.linesInAll_line, Block.linesInAll_nil]
      cases source <;>
        simp only [FieldSource.value, List.forall_mem_cons, quotes_append, quotes_name hname] <;>
        decide

variable {c : DataClass}

theorem occurrencesIn_flatMap_eq_zero {f : String × DataType → List String}
    {fields : List (String × DataType)}
    (h : ∀ field ∈ fields, occurrencesIn tripleQuote (f field) = 0) :
    occurrencesIn tripleQuote (fields.flatMap f) = 0 := by
  rw [occurrencesIn_eq_zero_iff, List.forall_mem_flatMap]
  exact fun field hfield => occurrencesIn_eq_zero_iff.mp (h field hfield)

theorem occurrencesIn_linesInAll_ite {p : Prop} [Decidable p] {yes no : List Block}
    (hyes : occurrencesIn tripleQuote (Block.linesInAll yes) = 0)
    (hno : occurrencesIn tripleQuote (Block.linesInAll no) = 0) :
    occurrencesIn tripleQuote (Block.linesInAll (if p then yes else no)) = 0 := by
  split
  · exact hyes
  · exact hno

theorem occurrences_parameterBlocks (hc : c.Spelled) :
    occurrencesIn tripleQuote (Block.linesInAll
      (c.fields.entries.map fun (name, t) => parameterBlock c.path name t)) = 0 := by
  rw [Block.linesInAll_map]
  exact occurrencesIn_flatMap_eq_zero fun field hfield =>
    occurrences_parameterBlock hc.path (hc.fields field hfield) field.2

theorem occurrences_initialBlocks (hc : c.Spelled) :
    occurrencesIn tripleQuote (Block.linesInAll
      (c.fields.entries.map fun (name, t) => initialBlock c.path name t)) = 0 := by
  rw [Block.linesInAll_map]
  exact occurrencesIn_flatMap_eq_zero fun field hfield =>
    occurrences_initialBlock hc.path (hc.fields field hfield) field.2

theorem occurrences_constructorBlocks (hc : c.Spelled) :
    occurrencesIn tripleQuote (Block.linesInAll c.constructorBlocks) = 0 := by
  have hpass : occurrencesIn tripleQuote (Block.linesInAll [.line "pass"]) = 0 := by decide
  simp only [constructorBlocks, Block.linesInAll_append, Block.linesInAll_line,
    Block.linesInAll_nest, Block.linesInAll_nil, Block.linesInAll_colon, List.cons_append,
    occurrencesIn_append, occurrencesIn_cons, occurrences_parameterBlocks hc,
    occurrencesIn_linesInAll_ite hpass (occurrences_initialBlocks hc)]
  decide

theorem occurrences_newMessage (hc : c.Spelled) (before : String) (hbefore : quotes before = 0) :
    occurrences tripleQuote (before ++ c.newMessage).toList = 0 := by
  refine occurrences_of_few ?_
  simp only [newMessage, quotes_append, hbefore, hc.path.quotes_wireName]
  decide

/-- A field that is converted is one of the fields. -/
theorem occurrences_conversions (hc : c.Spelled) :
    occurrencesIn tripleQuote (Block.linesInAll
      (c.conversions.flatMap fun (name, how) => conversionBlocks name how)) = 0 := by
  rw [Block.linesInAll_flatMap, occurrencesIn_eq_zero_iff, List.forall_mem_flatMap]
  intro field hfield
  obtain ⟨entry, hentry, hconversion⟩ := List.mem_filterMap.mp hfield
  obtain ⟨how, -, rfl⟩ := Option.map_eq_some_iff.mp hconversion
  exact occurrencesIn_eq_zero_iff.mp (occurrences_conversionBlocks (hc.fields entry hentry) how)

theorem occurrences_toWireBlocks (hc : c.Spelled) :
    occurrencesIn tripleQuote (Block.linesInAll c.toWireBlocks) = 0 := by
  have hreturn : occurrencesIn tripleQuote
      (Block.linesInAll [.line ("return " ++ c.newMessage)]) = 0 :=
    occurrences_newMessage hc "return " rfl
  have hresult := occurrences_newMessage hc "result = " rfl
  rw [toWireBlocks, Block.linesInAll_colon, occurrencesIn_cons,
    occurrencesIn_linesInAll_ite hreturn]
  · decide
  · simp only [Block.linesInAll_append, Block.linesInAll_line, Block.linesInAll_nil,
      occurrencesIn_append, occurrencesIn_singleton, hresult, occurrences_conversions hc]
    decide

theorem occurrences_fields_readBlocks (hc : c.Spelled) (source : FieldSource) :
    occurrencesIn tripleQuote (Block.linesInAll
      (c.fields.entries.flatMap fun (name, t) => readBlocks c.path source name t)) = 0 := by
  rw [Block.linesInAll_flatMap]
  exact occurrencesIn_flatMap_eq_zero fun field hfield =>
    occurrences_readBlocks hc.path (hc.fields field hfield) source field.2

theorem occurrences_fromSourceBlocks (hc : c.Spelled) (source : FieldSource) :
    occurrencesIn tripleQuote (Block.linesInAll (c.fromSourceBlocks source)) = 0 := by
  have hpreamble : occurrencesIn tripleQuote (Block.linesInAll
      (if source = .dict then dictPreamble else [])) = 0 :=
    occurrencesIn_linesInAll_ite (by decide) rfl
  rw [fromSourceBlocks, Block.linesInAll_colon, occurrencesIn_cons,
    occurrencesIn_linesInAll_ite (by decide)]
  · cases source <;> decide
  · rw [Block.linesInAll_append, occurrencesIn_append, hpreamble,
      occurrences_fields_readBlocks hc]

end Code

section Said

/-- The texts that a class is described with: its own, and those of its fields. -/
def descriptions (c : DataClass) : List String :=
  c.description :: c.fields.entries.map (·.2.description)

/-- What stands between the quotes of a docstring. -/
def said (c : DataClass) : List Block :=
  (((Text.lines c.description).map Text.trim).filter (!·.isEmpty)).map .line ++ [.blank]
    ++ (if c.fields.isEmpty then []
      else [.line "Properties:",
        .nest (c.fields.entries.flatMap fun (name, t) => propertyBlocks name t)])

theorem docBlocks_eq (c : DataClass) :
    c.docBlocks = .line "\"\"\"" :: c.said ++ [.line "\"\"\""] := by
  simp [docBlocks, said]

theorem occurrencesIn_filter_nonempty (texts : List String) :
    occurrencesIn tripleQuote (texts.filter (!·.isEmpty)) = occurrencesIn tripleQuote texts := by
  induction texts with
  | nil => rfl
  | cons text rest ih =>
      rw [List.filter_cons]
      split
      · rw [occurrencesIn_cons, occurrencesIn_cons, ih]
      · rename_i hempty
        have htext : text = "" := by simpa [String.isEmpty_iff] using hempty
        rw [occurrencesIn_cons, htext, ih]
        exact (Nat.zero_add _).symm

theorem occurrencesIn_map_trim (texts : List String) :
    occurrencesIn tripleQuote (texts.map Text.trim) = occurrencesIn tripleQuote texts := by
  induction texts with
  | nil => rfl
  | cons text rest ih =>
      rw [List.map_cons, occurrencesIn_cons, occurrencesIn_cons,
        occurrences_trim visible_tripleQuote, ih]

/-- The lines about a field have the three quotes in a row that its text has. -/
theorem occurrences_propertyBlocks {name : String} (hname : Naming.isIdentifier name = true)
    (t : DataType) :
    occurrencesIn tripleQuote (Block.linesInAll (propertyBlocks name t)) =
      tripleQuotes t.description := by
  have hplain : ∀ c ∈ (name ++ ": ").toList, c ∉ tripleQuote := by
    refine notMem_tripleQuote_of_quotes ?_
    rw [quotes_append, quotes_name hname]
    rfl
  have hfirst : ∀ text : String,
      occurrences tripleQuote (Text.trimEnd (name ++ ": " ++ Text.trim text)).toList =
        occurrences tripleQuote text.toList := by
    intro text
    rw [occurrences_trimEnd visible_tripleQuote, String.toList_append,
      occurrences_append_left visible_tripleQuote.ne_nil hplain,
      occurrences_trim visible_tripleQuote]
  rw [tripleQuotes, ← occurrencesIn_lines visible_tripleQuote]
  simp only [propertyBlocks, Block.linesInAll_line, Block.linesInAll_nest, Block.linesInAll_nil,
    Block.linesInAll_map_line, List.append_nil, occurrencesIn_cons, hfirst,
    occurrencesIn_map_trim]
  cases Text.lines t.description <;> rfl

/-- The inside of a docstring has the three quotes in a row that the descriptions have. -/
theorem occurrences_said {c : DataClass} (hc : c.Spelled) :
    occurrencesIn tripleQuote (Block.linesInAll c.said) =
      (c.descriptions.map tripleQuotes).sum := by
  have hown : occurrencesIn tripleQuote
      (((Text.lines c.description).map Text.trim).filter (!·.isEmpty)) =
        tripleQuotes c.description := by
    rw [occurrencesIn_filter_nonempty, occurrencesIn_map_trim,
      occurrencesIn_lines visible_tripleQuote, tripleQuotes]
  have hfields : occurrencesIn tripleQuote (Block.linesInAll
      (c.fields.entries.flatMap fun (name, t) => propertyBlocks name t)) =
        (c.fields.entries.map fun field => tripleQuotes field.2.description).sum := by
    rw [Block.linesInAll_flatMap, occurrencesIn_flatMap]
    refine congrArg List.sum (List.map_congr_left fun field hfield => ?_)
    exact occurrences_propertyBlocks (hc.fields field hfield) field.2
  have hproperties : occurrencesIn tripleQuote (Block.linesInAll
      (if c.fields.isEmpty then []
      else [.line "Properties:",
        .nest (c.fields.entries.flatMap fun (name, t) => propertyBlocks name t)])) =
        (c.fields.entries.map fun field => tripleQuotes field.2.description).sum := by
    split
    · rename_i hempty
      rw [List.isEmpty_iff.mp hempty]
      rfl
    · rw [Block.linesInAll_line, Block.linesInAll_nest, Block.linesInAll_nil, List.append_nil,
        occurrencesIn_cons, hfields]
      exact Nat.zero_add _
  rw [said, Block.linesInAll_append, Block.linesInAll_append, Block.linesInAll_map_line,
    occurrencesIn_append, occurrencesIn_append, List.map_id', hown, hproperties, descriptions,
    List.map_cons, List.sum_cons, List.map_map]
  rfl

end Said

section Classes

theorem occurrences_code {c : DataClass} (hc : c.Spelled) (use : ClassUse) :
    occurrencesIn tripleQuote (Block.linesInAll (c.code use)) = 0 := by
  cases use <;> simp [code, occurrences_constructorBlocks hc, occurrences_toWireBlocks hc,
    occurrences_fromSourceBlocks hc]

theorem occurrences_heading {c : DataClass} (hc : c.Spelled) : tripleQuotes c.heading = 0 := by
  refine occurrences_of_few ?_
  rw [heading, quotes_append, quotes_append, hc.path.quotes_className]
  decide

def text (use : ClassUse) (c : DataClass) : String :=
  Block.render (c.blocks use)

/-- The line with the three quotes that the generator writes before and behind a docstring. -/
def quoteLine : String :=
  Block.margin 1 ++ "\"\"\"\n"

/-- The text of a class has its docstring between two lines of quotes.  There are no three quotes in
a row elsewhere but in the docstring, and there those of the descriptions. -/
structure Encloses (use : ClassUse) (c : DataClass) : Prop where
  text_eq : c.text use = c.heading ++ "\n" ++ quoteLine ++ Block.textAllAt 1 c.said ++ quoteLine
    ++ Block.textAllAt 1 (c.code use)
  heading : tripleQuotes c.heading = 0
  said : tripleQuotes (Block.textAllAt 1 c.said) = (c.descriptions.map tripleQuotes).sum
  code : tripleQuotes (Block.textAllAt 1 (c.code use)) = 0
  all : tripleQuotes (c.text use) = 2 + (c.descriptions.map tripleQuotes).sum

theorem text_eq (use : ClassUse) (c : DataClass) :
    c.text use = c.heading ++ "\n" ++ quoteLine ++ Block.textAllAt 1 c.said ++ quoteLine
      ++ Block.textAllAt 1 (c.code use) := by
  have hheading : Block.lineText 0 c.heading = c.heading ++ "\n" := by
    have hblank : Text.allBlank c.heading = false := by
      simp [Text.allBlank, heading, Text.isBlank]
    rw [Block.lineText, hblank]
    exact congrArg (· ++ "\n") String.empty_append
  have hquotes : Block.lineText 1 "\"\"\"" = quoteLine := by decide
  rw [text, blocks_eq, Block.render, Block.textAllAt_cons, Block.textAllAt_cons,
    Block.textAllAt_nil, String.append_empty, Block.textAt, Block.textAt, hheading, body,
    docBlocks_eq, Block.textAllAt_append, Block.textAllAt_append, Block.textAllAt_cons,
    Block.textAllAt_cons, Block.textAllAt_nil, Block.textAt, hquotes]
  simp only [String.append_assoc, String.append_empty]

theorem encloses {c : DataClass} (hc : c.Spelled) (use : ClassUse) : c.Encloses use where
  text_eq := text_eq use c
  heading := occurrences_heading hc
  said := by
    rw [tripleQuotes, Block.occurrences_textAllAt visible_tripleQuote, occurrences_said hc]
  code := by
    rw [tripleQuotes, Block.occurrences_textAllAt visible_tripleQuote, occurrences_code hc]
  all := by
    have hheading : occurrences tripleQuote c.heading.toList = 0 := occurrences_heading hc
    have hmark : occurrences tripleQuote "\"\"\"".toList = 1 := by decide
    rw [tripleQuotes, text, Block.render, Block.occurrences_textAllAt visible_tripleQuote,
      blocks_eq, body, docBlocks_eq]
    simp only [Block.linesInAll_line, Block.linesInAll_nest, Block.linesInAll_nil,
      Block.linesInAll_append, occurrencesIn_cons, occurrencesIn_append, occurrencesIn_nil,
      hheading, hmark, occurrences_said hc, occurrences_code hc, List.cons_append,
      List.append_nil]
    omega

theorem sum_tripleQuotes_eq_zero_iff (texts : List String) :
    (texts.map tripleQuotes).sum = 0 ↔ ∀ text ∈ texts, ¬ tripleQuote <:+: text.toList := by
  have h : occurrencesIn tripleQuote texts = 0 ↔ _ := occurrencesIn_eq_zero_iff
  simp only [occurrences_eq_zero_iff visible_tripleQuote.ne_nil] at h
  exact h

/-- The modules with data classes for an accepted service whose names are identifiers consist of the
classes, and in the text of each class the docstring stands between two lines of quotes.  There are
no other three quotes in a row exactly when there are none in the descriptions of the class and of
its fields. -/
theorem accepted_service_docstrings_closed_iff {services : List Service} {s : Service}
    (haccepted : (Service.checkAll services).isOk = true) (hs : s ∈ services)
    (hnames : s.NamedByIdentifiers) :
    (∀ side, Block.sections (s.dataModule side) =
        (ofService s).map fun c => (c.heading, c.body .wire)) ∧
      (∀ options, Block.sections (s.definitionsModule options) =
        (ofService s).map fun c => (c.heading, c.body .definitions)) ∧
      ∀ c ∈ ofService s, ∀ use, c.Encloses use ∧
        (tripleQuotes (c.text use) = 2 ↔
          ∀ text ∈ c.descriptions, ¬ tripleQuote <:+: text.toList) := by
  have hwellFormed := (Service.isOk_checkAll_iff services).mp haccepted s hs
  refine ⟨fun side => sections_dataModule side s,
    fun options => sections_definitionsModule options s, fun c hc use => ?_⟩
  have hencloses := encloses (spelled_of_mem_ofService hwellFormed hnames hc) use
  refine ⟨hencloses, ?_⟩
  rw [hencloses.all, ← sum_tripleQuotes_eq_zero_iff, Nat.add_eq_left]

end Classes

end DataClass

namespace DocstringsWitness

open DataType DataClass

/-- An operation with a text, and one argument with a text and a default. -/
def notes (operation argument : String) : Service where
  name := "notes"
  declaredAs := ⟨"app.notes", "notes"⟩
  operations := [{
    Operation.named "add" with
    description := operation
    arguments := [.ofType "text"
      { scalar .string with description := argument, default := some (.str "\"\"\"") }] }]
  implementation := none
  webNamespace := none

/-- Texts with quotes, but never three in a row, and a default that has them. -/
def quoted : Service :=
  notes "adds \"a note\"\nor \"\"" "\"text\""

theorem quoted_docstrings_closed :
    (Service.checkAll [quoted]).isOk = true ∧ quoted ∈ [quoted] ∧ quoted.NamedByIdentifiers ∧
      ∀ c ∈ ofService quoted, ∀ use, tripleQuotes (c.text use) = 2 := by
  have haccepted : (Service.checkAll [quoted]).isOk = true := by decide
  have hmem : quoted ∈ [quoted] := List.mem_singleton.mpr rfl
  have hnames : quoted.NamedByIdentifiers := ⟨by decide, by decide, by decide⟩
  have htexts : ∀ c ∈ ofService quoted, ∀ text ∈ c.descriptions,
      ¬ tripleQuote <:+: text.toList := by decide +kernel
  obtain ⟨-, -, hclasses⟩ := accepted_service_docstrings_closed_iff haccepted hmem hnames
  exact ⟨haccepted, hmem, hnames, fun c hc use => (hclasses c hc use).2.mpr (htexts c hc)⟩

/-- The text of an operation closes its docstring. -/
def closing : Service :=
  notes "adds \"\"\" a note" ""

theorem not_all_docstrings_closed :
    ¬ ∀ services, (Service.checkAll services).isOk = true → ∀ s ∈ services,
      s.NamedByIdentifiers → ∀ c ∈ ofService s, ∀ use, tripleQuotes (c.text use) = 2 := by
  intro hall
  have haccepted : (Service.checkAll [closing]).isOk = true := by decide
  have hmem : closing ∈ [closing] := List.mem_singleton.mpr rfl
  have hnames : closing.NamedByIdentifiers := ⟨by decide, by decide, by decide⟩
  have hwellFormed := (Service.isOk_checkAll_iff [closing]).mp haccepted closing hmem
  have hnone : ∀ c ∈ ofService closing, (c.descriptions.map tripleQuotes).sum = 0 := by
    intro c hc
    have htwo := hall [closing] haccepted closing hmem hnames c hc .wire
    rwa [(encloses (spelled_of_mem_ofService hwellFormed hnames hc) .wire).all,
      Nat.add_eq_left] at htwo
  revert hnone
  decide +kernel

end DocstringsWitness

end ServiceGen

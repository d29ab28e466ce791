import ServiceGen.Proofs.Declaration.NameOrder
import ServiceGen.Proofs.Fallible
import ServiceGen.Proofs.Schema.EnumSet
import ServiceGen.Proofs.Source.Sections
import ServiceGen.Proofs.Text.Search
import ServiceGen.Web.EnumResource

/-!
The names in the module of resources for enumerations.  Each enumeration has a class, a variable for
the model of its answer and two models of the interface there, all called after its pretty name.
What is checked beforehand are the names as they were declared, so two enumerations share all of
these names when their declared names are different and pretty alike.
-/

namespace ServiceGen

namespace EnumResource

section Reading

/-- What stands between a beginning and an ending. -/
def between? (lead tail text : String) : Option String :=
  (Text.stripStart? lead text).bind (Text.stripEnd? tail)

def classNames (blocks : List Block) : List String :=
  (Block.headers blocks).filterMap (between? "class " "(Resource):")

def answerVariables (blocks : List Block) : List String :=
  (Block.headers blocks).filterMap (Text.stripEnd? " = ns.response(")

/-- The name of the model of the interface that a line opens. -/
def modelName? (line : String) : Option String :=
  (between? "api.model(\"" "\", \x7b" line).or (between? "model=api.model(\"" "\", \x7b" line)

def modelNames (blocks : List Block) : List String :=
  (Block.linesInAll blocks).filterMap modelName?

theorem between?_eq_some_iff {lead tail text inner : String} :
    between? lead tail text = some inner ↔ text = lead ++ (inner ++ tail) := by
  rw [between?, Option.bind_eq_some_iff]
  constructor
  · rintro ⟨rest, hrest, hinner⟩
    rw [Text.stripStart?_eq_some_iff.mp hrest, Text.stripEnd?_eq_some_iff.mp hinner]
  · rintro rfl
    exact ⟨inner ++ tail, Text.stripStart?_eq_some_iff.mpr rfl, Text.stripEnd?_eq_some_iff.mpr rfl⟩

theorem between?_append (lead inner tail : String) :
    between? lead tail (lead ++ (inner ++ tail)) = some inner :=
  between?_eq_some_iff.mpr rfl

/-- A text with another last character does not end in the ending. -/
theorem between?_eq_none {lead tail text : String} {c d : Char}
    (hc : tail.toList.getLast? = some c) (hd : text.toList.getLast? = some d) (hne : d ≠ c) :
    between? lead tail text = none := by
  rw [Option.eq_none_iff_forall_ne_some]
  intro inner hinner
  rw [between?_eq_some_iff.mp hinner, ← String.append_assoc, String.toList_append,
    List.getLast?_append, hc, Option.some_or, Option.some_inj] at hd
  exact hne hd.symm

end Reading

section Written

/-- The enumerations that have a name, in the order of these. -/
def written (enums : List ExportedEnum) : List Named :=
  (sortByName Prod.fst (enums.filterMap fun e => e.name?.map (·, e))).filterMap
    fun (name, e) => Named.ofExport? name e

def resourceBlocks (apiPath : String) (enums : List ExportedEnum) : List Block :=
  header apiPath ++ (written enums).flatMap Named.resource

variable {enums : List ExportedEnum}

theorem mapM_nameOf (hnamed : ∀ e ∈ enums, e.name?.isSome = true) :
    enums.mapM nameOf = .ok (enums.filterMap fun e => e.name?.map (·, e)) := by
  induction enums with
  | nil => rfl
  | cons e rest ih =>
      rw [List.forall_mem_cons] at hnamed
      obtain ⟨name, hname⟩ := Option.isSome_iff_exists.mp hnamed.1
      have hfirst : nameOf e = .ok (name, e) := by rw [nameOf, hname]
      rw [List.mapM_cons, Fallible.bind_of_eq_ok hfirst, ih hnamed.2, List.filterMap_cons, hname]
      rfl

/-- Enumerations with names have their modules. -/
theorem modules_of_named (apiPath : String) (hnamed : ∀ e ∈ enums, e.name?.isSome = true) :
    modules apiPath enums = .ok ⟨Block.render ((written enums).flatMap Named.holder),
      Block.render (resourceBlocks apiPath enums)⟩ := by
  rw [modules, mapM_nameOf hnamed]
  rfl

theorem name_ofExport? (e : ExportedEnum) :
    (e.name?.bind fun name => Named.ofExport? name e).map (·.name) = e.name? := by
  cases hname : e.name? with
  | none => rfl
  | some name =>
      rw [ExportedEnum.name?] at hname
      rw [Option.bind_some]
      split at hname
      · rename_i hkind
        rw [Named.ofExport?, hkind]
        rfl
      · cases hname

/-- The written enumerations have the names of those that there are. -/
theorem names_written (enums : List ExportedEnum) :
    ((written enums).map (·.name)).Perm (enums.filterMap (·.name?)) := by
  have hperm := ((sortByName_perm Prod.fst (enums.filterMap fun e => e.name?.map (·, e))).filterMap
    fun (name, e) => Named.ofExport? name e).map (·.name)
  have hnames : ((enums.filterMap fun e => e.name?.map (·, e)).filterMap
      fun (name, e) => Named.ofExport? name e).map (·.name) = enums.filterMap (·.name?) := by
    rw [List.filterMap_filterMap, List.map_filterMap]
    refine List.filterMap_congr fun e _ => ?_
    rw [Option.bind_map]
    exact name_ofExport? e
  rwa [hnames] at hperm

end Written

section Names

/-- The two models of the interface for a class. -/
def modelsOf (className : String) : List String :=
  [className ++ "EnumResultDefine", className ++ "EnumResultInfoDefine"]

theorem headers_resource (e : Named) :
    Block.headers e.resource =
      [e.className ++ "EnumResultModel = ns.response(",
        "class " ++ e.className ++ "(Resource):"] := by
  have hanswer : Block.headers e.answerModel =
      [e.className ++ "EnumResultModel = ns.response("] := by
    rw [Named.answerModel, Block.headers, Block.sections_around]
    rfl
  rw [Named.resource, Block.headers_append rfl, Block.headers_append rfl, Block.headers_append rfl,
    hanswer, Block.headers, Block.headers, Block.headers, Block.sections_colon]
  simp [String.append_assoc]

theorem headers_resourceBlocks (apiPath : String) (enums : List ExportedEnum) :
    Block.headers (resourceBlocks apiPath enums) =
      (written enums).flatMap fun e => Block.headers e.resource := by
  have hbegin : ∀ e ∈ written enums, Block.beginsDeeper e.resource = false := fun _ _ => rfl
  have hheader : Block.headers (header apiPath) = [] := by
    simp [Block.headers, header]
  rw [resourceBlocks, Block.headers_append (Block.beginsDeeper_flatMap hbegin),
    Block.headers_flatMap hbegin, hheader, List.nil_append]

theorem classNames_resourceBlocks (apiPath : String) (enums : List ExportedEnum) :
    classNames (resourceBlocks apiPath enums) = (written enums).map Named.className := by
  have hone : ∀ e : Named, (Block.headers e.resource).filterMap
      (between? "class " "(Resource):") = [e.className] := by
    intro e
    have hvariable : between? "class " "(Resource):"
        (e.className ++ "EnumResultModel = ns.response(") = none := by
      exact between?_eq_none (c := ':') (d := '(') rfl (by simp) (by decide)
    rw [headers_resource, List.filterMap_cons_none hvariable, String.append_assoc,
      List.filterMap_cons_some (between?_append ..), List.filterMap_nil]
  rw [classNames, headers_resourceBlocks, List.filterMap_flatMap]
  simp only [hone]
  exact (List.map_eq_flatMap ..).symm

theorem answerVariables_resourceBlocks (apiPath : String) (enums : List ExportedEnum) :
    answerVariables (resourceBlocks apiPath enums) =
      (written enums).map fun e => e.className ++ "EnumResultModel" := by
  have hone : ∀ e : Named, (Block.headers e.resource).filterMap
      (Text.stripEnd? " = ns.response(") = [e.className ++ "EnumResultModel"] := by
    intro e
    have hvariable : e.className ++ "EnumResultModel = ns.response(" =
        e.className ++ "EnumResultModel" ++ " = ns.response(" := by
      rw [String.append_assoc]
      rfl
    have hclass : Text.stripEnd? " = ns.response(" ("class " ++ e.className ++ "(Resource):") =
        none := by
      simp [Text.stripEnd?, Text.strip?]
    rw [headers_resource, hvariable, List.filterMap_cons_some (Text.stripEnd?_eq_some_iff.mpr rfl),
      List.filterMap_cons_none hclass, List.filterMap_nil]
  rw [answerVariables, headers_resourceBlocks, List.filterMap_flatMap]
  simp only [hone]
  exact (List.map_eq_flatMap ..).symm

/-- A line that begins neither with `a` nor with `m` opens no model. -/
theorem modelName?_eq_none {line : String} (ha : line.toList.head? ≠ some 'a')
    (hm : line.toList.head? ≠ some 'm') : modelName? line = none := by
  have hbegin : ∀ lead tail : String, ∀ c, lead.toList.head? = some c →
      line.toList.head? ≠ some c → between? lead tail line = none := by
    intro lead tail c hc hline
    rw [Option.eq_none_iff_forall_ne_some]
    intro inner hinner
    rw [between?_eq_some_iff.mp hinner, String.toList_append, List.head?_append, hc] at hline
    exact hline rfl
  rw [modelName?, hbegin _ _ 'a' rfl ha, hbegin _ _ 'm' rfl hm]
  rfl

theorem modelName?_api (className : String) :
    modelName? ("api.model(\"" ++ className ++ "EnumResultDefine\", \x7b") =
      some (className ++ "EnumResultDefine") := by
  have hline : "api.model(\"" ++ className ++ "EnumResultDefine\", \x7b" =
      "api.model(\"" ++ (className ++ "EnumResultDefine" ++ "\", \x7b") := by
    simp [← String.toList_inj]
  rw [hline, modelName?, between?_append, Option.some_or]

theorem modelName?_nested (className : String) :
    modelName? ("model=api.model(\"" ++ className ++ "EnumResultInfoDefine\", \x7b") =
      some (className ++ "EnumResultInfoDefine") := by
  have hline : "model=api.model(\"" ++ className ++ "EnumResultInfoDefine\", \x7b" =
      "model=api.model(\"" ++ (className ++ "EnumResultInfoDefine" ++ "\", \x7b") := by
    simp [← String.toList_inj]
  have hapi : between? "api.model(\"" "\", \x7b"
      ("model=api.model(\"" ++ (className ++ "EnumResultInfoDefine" ++ "\", \x7b")) = none := by
    simp [between?, Text.stripStart?, Text.strip?]
  rw [hline, modelName?, hapi, between?_append, Option.none_or]

theorem modelName?_variable (className : String) :
    modelName? (className ++ "EnumResultModel = ns.response(") = none := by
  have hend : ∀ lead, between? lead "\", \x7b" (className ++ "EnumResultModel = ns.response(") =
      none :=
    fun _ => between?_eq_none (c := '\x7b') (d := '(') rfl (by simp) (by decide)
  rw [modelName?, hend, hend]
  rfl

theorem modelNames_resource (e : Named) : modelNames e.resource = modelsOf e.className := by
  have hquote : ∀ s, modelName? (Literal.quote s) = none := by
    intro s
    rw [modelName?_eq_none] <;> simp [Literal.quote]
  have hfixed : ∀ line ∈ ["200,", ",", "\"info\": fields.List(", "fields.Nested(",
      "\"key\": fields.String(description=\"enum name\"),", "description=\"enum value\",", "),",
      "\x7d),", ")", "\x7d)", "def get(self):", "return \x7b", "\"info\": [", "]", "\x7d", "\x7b",
      "\x7d,"], modelName? line = none := by
    decide +kernel
  simp only [List.forall_mem_cons] at hfixed
  have hmember : ∀ key member,
      (Block.linesInAll (Named.memberBlocks key member)).filterMap modelName? = [] := by
    simp [Named.memberBlocks, modelName?_eq_none, hfixed]
  have hdefault : (Block.linesInAll (e.type.defaultLine "default=")).filterMap modelName? = [] := by
    unfold DataType.defaultLine
    split <;> simp [modelName?_eq_none]
  simp [modelNames, Named.resource, Named.answerModel, Named.answerLines, Block.linesInAll_flatMap,
    List.filterMap_flatMap, modelName?_eq_none, modelName?_api, modelName?_nested,
    modelName?_variable, hquote, hfixed, hmember, hdefault, modelsOf]

theorem modelNames_resourceBlocks (apiPath : String) (enums : List ExportedEnum) :
    modelNames (resourceBlocks apiPath enums) =
      ((written enums).map Named.className).flatMap modelsOf := by
  have hheader : modelNames (header apiPath) = [] := by
    have hfixed : modelName? "from flask_restplus import fields, Resource" = none ∧
        modelName? "ns = api.namespace(\"enum\", description=\"enum definitions\")" = none := by
      decide +kernel
    simp [modelNames, header, modelName?_eq_none, hfixed]
  have hresource : ∀ e : Named, (Block.linesInAll e.resource).filterMap modelName? =
      modelsOf e.className := modelNames_resource
  rw [modelNames] at hheader
  rw [modelNames, resourceBlocks, Block.linesInAll_append, List.filterMap_append, hheader,
    List.nil_append, Block.linesInAll_flatMap, List.filterMap_flatMap, List.flatMap_map]
  simp only [hresource]

end Names

section Distinct

/-- Names that are different stay so when they are made pretty. -/
def PrettyApart (names : List String) : Prop :=
  ∀ a ∈ names, ∀ b ∈ names, Naming.pretty a = Naming.pretty b → a = b

instance (names : List String) : Decidable (PrettyApart names) :=
  inferInstanceAs (Decidable (∀ a ∈ names, ∀ b ∈ names, Naming.pretty a = Naming.pretty b → a = b))

theorem disjoint_modelsOf {a b : String} :
    (modelsOf a).Disjoint (modelsOf b) ↔ a ≠ b := by
  have hends : ∀ a b : String, a ++ "EnumResultDefine" ≠ b ++ "EnumResultInfoDefine" := by
    intro a b heq
    have hreverse := congrArg (·.toList.reverse) heq
    simp at hreverse
  have hends' : ∀ a b : String, a ++ "EnumResultInfoDefine" ≠ b ++ "EnumResultDefine" :=
    fun a b heq => hends b a heq.symm
  simp [modelsOf, List.Disjoint, hends, hends']

/-- Classes have models of their own when they have names of their own. -/
theorem nodup_modelsOf_iff {classes : List String} :
    (classes.flatMap modelsOf).Nodup ↔ classes.Nodup := by
  have hpair : ∀ a, (modelsOf a).Nodup := by
    intro a
    simp [modelsOf, ← String.toList_inj]
  rw [List.nodup_flatMap]
  refine (and_iff_right fun a _ => hpair a).trans (List.Pairwise.iff fun a b => ?_)
  exact disjoint_modelsOf

variable {enums : List ExportedEnum}

theorem classNames_written (enums : List ExportedEnum) :
    ((written enums).map Named.className).Perm
      ((enums.filterMap (·.name?)).map Naming.pretty) := by
  have hperm := (names_written enums).map Naming.pretty
  rwa [List.map_map] at hperm

theorem nodup_classNames_iff (hclash : EnumSet.clash? ⟨enums⟩ = none) :
    ((written enums).map Named.className).Nodup ↔ PrettyApart (enums.filterMap (·.name?)) := by
  have hnames : (enums.filterMap (·.name?)).Nodup := EnumSet.clash?_eq_none_iff.mp hclash
  exact (classNames_written enums).nodup_iff.trans (List.nodup_map_iff_inj_on hnames)

/-- The modules of enumerations that have names, all of them different, are made, and in the one
for resources each enumeration has a class and a variable of its own, and two models of the
interface, all called after its pretty name.  Each of these lists is free of repetitions exactly
when different names stay different when they are made pretty. -/
theorem resource_names_distinct_iff (apiPath : String) (hclash : EnumSet.clash? ⟨enums⟩ = none)
    (hnamed : ∀ e ∈ enums, e.name?.isSome = true) :
    (∃ holders, modules apiPath enums =
        .ok ⟨holders, Block.render (resourceBlocks apiPath enums)⟩) ∧
      (classNames (resourceBlocks apiPath enums)).Perm
        ((enums.filterMap (·.name?)).map Naming.pretty) ∧
      ((classNames (resourceBlocks apiPath enums)).Nodup ↔
        PrettyApart (enums.filterMap (·.name?))) ∧
      ((answerVariables (resourceBlocks apiPath enums)).Nodup ↔
        PrettyApart (enums.filterMap (·.name?))) ∧
      ((modelNames (resourceBlocks apiPath enums)).Nodup ↔
        PrettyApart (enums.filterMap (·.name?))) := by
  have hclasses := nodup_classNames_iff hclash
  have hvariables : (written enums).map (fun e => e.className ++ "EnumResultModel") =
      ((written enums).map Named.className).map (· ++ "EnumResultModel") := by
    rw [List.map_map]
    rfl
  have hsuffix : Function.Injective fun name : String => name ++ "EnumResultModel" :=
    fun a b heq => by simpa using heq
  refine ⟨⟨_, modules_of_named apiPath hnamed⟩, ?_, ?_, ?_, ?_⟩
  · rw [classNames_resourceBlocks]
    exact classNames_written enums
  · rwa [classNames_resourceBlocks]
  · rwa [answerVariables_resourceBlocks, hvariables, List.nodup_map_iff hsuffix]
  · rwa [modelNames_resourceBlocks, nodup_modelsOf_iff]

end Distinct

end EnumResource

namespace EnumResourceWitness

open EnumResource

/-- An enumeration over integers with one member. -/
def exported (name module : String) : ExportedEnum :=
  .ofType name module (.enumeration none (.scalar .int) ⟨[("OK", .scalar .int)]⟩)

/-- The pretty names of these are `JobState` and `Job`. -/
def apart : List ExportedEnum :=
  [exported "job_state" "app.jobs", exported "Job" "app.jobs"]

theorem pretty_names_apart :
    EnumSet.clash? ⟨apart⟩ = none ∧ (∀ e ∈ apart, e.name?.isSome = true) ∧
      (classNames (resourceBlocks "src" apart)).Nodup ∧
        (answerVariables (resourceBlocks "src" apart)).Nodup ∧
          (modelNames (resourceBlocks "src" apart)).Nodup := by
  have hclash : EnumSet.clash? ⟨apart⟩ = none := by decide
  have hnamed : ∀ e ∈ apart, e.name?.isSome = true := by decide
  have hpretty : PrettyApart (apart.filterMap (·.name?)) := by decide +kernel
  obtain ⟨-, -, hclasses, hvariables, hmodels⟩ := resource_names_distinct_iff "src" hclash hnamed
  exact ⟨hclash, hnamed, hclasses.mpr hpretty, hvariables.mpr hpretty, hmodels.mpr hpretty⟩

/-- The pretty name of both is `JobState`. -/
def meeting : List ExportedEnum :=
  [exported "job_state" "app.jobs", exported "JobState" "app.tasks"]

/-- Two names that are different as declared: the second resource takes the place of the first. -/
theorem pretty_names_meet :
    ¬ ∀ (apiPath : String) (enums : List ExportedEnum), EnumSet.clash? ⟨enums⟩ = none →
      (∀ e ∈ enums, e.name?.isSome = true) → (classNames (resourceBlocks apiPath enums)).Nodup := by
  intro hall
  have hclash : EnumSet.clash? ⟨meeting⟩ = none := by decide
  have hnodup := hall "src" meeting hclash (by decide)
  rw [classNames_resourceBlocks, nodup_classNames_iff hclash] at hnodup
  revert hnodup
  decide +kernel

end EnumResourceWitness

end ServiceGen

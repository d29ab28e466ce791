import Mathlib.Data.List.Induction
import Mathlib.Data.List.Nodup
import ServiceGen.Proofs.Declaration.NameOrder
import ServiceGen.Proofs.Files.Path
import ServiceGen.Proofs.SortedMap
import ServiceGen.Proofs.Source.Sections
import ServiceGen.Table.Module

/-!
Where the modules for tables define the models.  Models are put together by the last part of their
module's name, so models of different modules meet; the main statement,
`TableModule.keeps_models_iff`, says when each of them is still defined once under its own name.
-/

namespace ServiceGen

namespace ExportedModel

/-- The line that opens the definition of a model. -/
def header (m : ExportedModel) : TableForm → String
  | .declarative => "class " ++ m.variableName ++ "(Base):"
  | .plain => m.variableName ++ " = Table("

theorem header_inj {m n : ExportedModel} {form : TableForm} :
    m.header form = n.header form ↔ m.variableName = n.variableName := by
  cases form <;> simp [header, String.append_assoc]

/-- The definition of a model is one section. -/
theorem headers_blocks (m : ExportedModel) (form : TableForm) :
    (Block.sections (m.blocks form)).map (·.1) = [m.header form] := by
  cases form with
  | declarative => simp [blocks, declarativeBlocks, Block.colon, header, String.append_assoc]
  | plain =>
      have hclosing : Block.sections [.line ")"] = [] := Block.sections_line ")" rfl
      simp [blocks, plainBlocks, Block.around, header, hclosing]

theorem slash_notMem_group {m : ExportedModel} (hmodule : '/' ∉ m.module.toList) :
    '/' ∉ m.group.toList := by
  rw [group, Text.splitAt]
  cases hlast : ((Text.pieces (· == '.') m.module.toList).map String.ofList).getLast? with
  | none => simp
  | some part =>
      obtain ⟨piece, hpiece, rfl⟩ := List.mem_map.mp (List.mem_of_getLast? hlast)
      intro hslash
      rw [Option.getD_some, String.toList_ofList] at hslash
      exact hmodule ((Text.mem_pieces_iff _ _ _).mp ⟨piece, hpiece, hslash⟩).1

end ExportedModel

namespace TableModule

section Groups

/-- The models of a group, in the order of their variables. -/
def ofGroup (models : List ExportedModel) (group : String) : List ExportedModel :=
  sortByName ExportedModel.variableName (models.filter (·.group == group))

/-- The models of a group are those that name it. -/
theorem mem_ofGroup_iff {models : List ExportedModel} {group : String} {m : ExportedModel} :
    m ∈ ofGroup models group ↔ m ∈ models ∧ m.group = group := by
  rw [ofGroup, (sortByName_perm _ _).mem_iff, List.mem_filter, beq_iff_eq]

/-- The models by group, in the order in which they come. -/
def collected (models : List ExportedModel) : SortedMap String (List ExportedModel) :=
  models.foldl (fun groups m => groups.alter m.group fun ms => ms.getD [] ++ [m]) .empty

theorem groups_eq (models : List ExportedModel) :
    groups models = (collected models).map (sortByName ExportedModel.variableName) := rfl

theorem collected_concat (models : List ExportedModel) (m : ExportedModel) :
    collected (models ++ [m]) =
      (collected models).alter m.group fun ms => ms.getD [] ++ [m] := by
  rw [collected, List.foldl_append]
  rfl

theorem ascending_collected (models : List ExportedModel) :
    SortedMap.Ascending (collected models).entries := by
  induction models using List.reverseRecOn with
  | nil => exact List.Pairwise.nil
  | append_singleton models m ih =>
      rw [collected_concat]
      exact ih.alter m.group _

/-- Under the name of a group are its models. -/
theorem get?_collected (models : List ExportedModel) (group : String) :
    (collected models).get? group =
      if group ∈ models.map (·.group) then some (models.filter (·.group == group)) else none := by
  induction models using List.reverseRecOn with
  | nil => rfl
  | append_singleton models m ih =>
      rw [collected_concat, SortedMap.get?_alter (ascending_collected models)]
      by_cases hgroup : group = m.group
      · subst hgroup
        rw [ih]
        by_cases hmem : m.group ∈ models.map (·.group)
        · simp [hmem]
        · have hnone : models.filter (·.group == m.group) = [] := by
            rw [List.filter_eq_nil_iff]
            intro n hn heq
            exact hmem (List.mem_map.mpr ⟨n, hn, beq_iff_eq.mp heq⟩)
          simp [hmem, hnone]
      · have hne : ¬ m.group = group := fun heq => hgroup heq.symm
        simp [ih, hgroup, hne]

/-- The groups are those of the models, each with its models. -/
theorem mem_groups_iff {models : List ExportedModel} {group : String} {ms : List ExportedModel} :
    (group, ms) ∈ (groups models).entries ↔
      group ∈ models.map (·.group) ∧ ms = ofGroup models group := by
  have hfound : ∀ found, (group, found) ∈ (collected models).entries ↔
      group ∈ models.map (·.group) ∧ models.filter (·.group == group) = found := by
    intro found
    rw [SortedMap.mem_entries_iff (ascending_collected models), get?_collected]
    split <;> simp_all
  rw [groups_eq, SortedMap.map, List.mem_map]
  constructor
  · rintro ⟨⟨g, found⟩, hmem, heq⟩
    obtain ⟨rfl, rfl⟩ := Prod.mk.inj heq
    obtain ⟨hgroup, rfl⟩ := (hfound found).mp hmem
    exact ⟨hgroup, rfl⟩
  · rintro ⟨hgroup, rfl⟩
    exact ⟨_, (hfound _).mpr ⟨hgroup, rfl⟩, rfl⟩

theorem keys_groups (models : List ExportedModel) :
    (groups models).keys = (collected models).keys := by
  rw [groups_eq, SortedMap.map, SortedMap.keys, List.map_map]
  rfl

theorem mem_keys_groups {models : List ExportedModel} {group : String} :
    group ∈ (groups models).keys ↔ group ∈ models.map (·.group) := by
  rw [SortedMap.keys, List.mem_map]
  constructor
  · rintro ⟨⟨_, ms⟩, hmem, rfl⟩
    exact (mem_groups_iff.mp hmem).1
  · exact fun hgroup => ⟨_, mem_groups_iff.mpr ⟨hgroup, rfl⟩, rfl⟩

theorem nodup_keys_groups (models : List ExportedModel) : (groups models).keys.Nodup := by
  rw [keys_groups]
  exact (ascending_collected models).nodup

end Groups

section Written

/-- A module for models, as it is written. -/
structure Written where
  group : String
  form : TableForm
  models : List ExportedModel

namespace Written

def path (w : Written) : Path :=
  ⟨stem w.group w.form ++ ".py"⟩

def blocks (apiPath : String) (w : Written) : List Block :=
  module apiPath w.form w.models

def file (apiPath : String) (w : Written) : GeneratedFile :=
  ⟨w.path, Block.render (w.blocks apiPath)⟩

end Written

def written (models : List ExportedModel) : List Written :=
  (groups models).entries.flatMap fun (group, ms) => forms.map (⟨group, ·, ms⟩)

theorem mem_written_iff {models : List ExportedModel} {w : Written} :
    w ∈ written models ↔
      w.group ∈ models.map (·.group) ∧ w.models = ofGroup models w.group := by
  obtain ⟨group, form, ms⟩ := w
  have hform : form ∈ forms := by cases form <;> decide
  rw [← mem_groups_iff, written, List.mem_flatMap]
  constructor
  · rintro ⟨⟨g, found⟩, hmem, hw⟩
    obtain ⟨f, -, heq⟩ := List.mem_map.mp hw
    injection heq with hgroup _ hmodels
    exact hgroup ▸ hmodels ▸ hmem
  · exact fun hmem => ⟨_, hmem, List.mem_map.mpr ⟨form, hform, rfl⟩⟩

theorem files_eq (apiPath filter : String) (models : List ExportedModel) :
    ∃ imports, files apiPath filter models =
      (written (selected filter models)).map (·.file apiPath) ++ [⟨⟨"__init__.py"⟩, imports⟩] := by
  simp only [files, written, List.map_flatMap]
  exact ⟨_, rfl⟩

/-- A module defines its models and nothing else, one after the other. -/
theorem sections_module (apiPath : String) (form : TableForm) (models : List ExportedModel) :
    Block.sections (module apiPath form models) =
      models.flatMap fun m => Block.sections (m.blocks form) := by
  have hdeeper : ∀ ms : List ExportedModel,
      Block.beginsDeeper (ms.flatMap fun m => [.blank, .blank] ++ m.blocks form) = false := by
    intro ms
    cases ms <;> rfl
  rw [module.eq_def, List.cons_append, List.cons_append, List.nil_append,
    Block.sections_line _ rfl, Block.sections_line _ (hdeeper models)]
  induction models with
  | nil => rfl
  | cons m rest ih =>
      rw [List.flatMap_cons, Block.sections_append (hdeeper rest), ih, List.flatMap_cons,
        List.cons_append, List.cons_append, List.nil_append, Block.sections_blank,
        Block.sections_blank]

theorem headers_module (apiPath : String) (form : TableForm) (models : List ExportedModel) :
    (Block.sections (module apiPath form models)).map (·.1) = models.map (·.header form) := by
  rw [sections_module, List.map_flatMap]
  induction models with
  | nil => rfl
  | cons m rest ih => rw [List.flatMap_cons, ih, m.headers_blocks form, List.map_cons]; rfl

end Written

section Distinct

variable {models : List ExportedModel}

/-- The stems of groups are distinct when no group is called after the plain tables of another. -/
theorem nodup_stems_iff {groups : List String} (hgroups : groups.Nodup) :
    (groups.flatMap fun group => forms.map (stem group)).Nodup ↔
      ∀ g ∈ groups, ∀ h ∈ groups, h ≠ stem g .plain := by
  have hinjective : Function.Injective (stem · .plain) := fun g h heq => by simpa [stem] using heq
  exact (nodup_with_companions_iff hinjective).trans (and_iff_right hgroups)

def stems (models : List ExportedModel) : List String :=
  (groups models).keys.flatMap fun group => forms.map (stem group)

theorem mem_stems_iff {s : String} :
    s ∈ stems models ↔ ∃ m ∈ models, ∃ form, s = stem m.group form := by
  simp only [stems, List.mem_flatMap, List.mem_map, mem_keys_groups]
  constructor
  · rintro ⟨_, ⟨m, hm, rfl⟩, form, -, rfl⟩
    exact ⟨m, hm, form, rfl⟩
  · rintro ⟨m, hm, form, rfl⟩
    exact ⟨m.group, ⟨m, hm, rfl⟩, form, by cases form <;> decide, rfl⟩

theorem isFileName_of_mem_stems (hmodules : ∀ m ∈ models, '/' ∉ m.module.toList) {s : String}
    (hs : s ∈ stems models) : Path.IsFileName (s ++ ".py") := by
  obtain ⟨m, hm, form, rfl⟩ := mem_stems_iff.mp hs
  have hgroup := ExportedModel.slash_notMem_group (hmodules m hm)
  refine Path.isFileName_append ".py" ?_ (by simp) (by decide)
  cases form <;> simp [stem, hgroup]

def component (s : String) : Component :=
  .name (s ++ ".py")

theorem component_injective : Function.Injective component := by
  intro a b h
  simpa [component] using h

theorem components_files {apiPath filter : String}
    (hmodules : ∀ m ∈ selected filter models, '/' ∉ m.module.toList) :
    (files apiPath filter models).map (·.path.components) =
      (stems (selected filter models) ++ ["__init__"]).map fun s => [component s] := by
  obtain ⟨imports, hfiles⟩ := files_eq apiPath filter models
  have hpackage : (⟨"__init__.py"⟩ : Path).components = [component "__init__"] := by decide
  have hpaths : ((written (selected filter models)).map (·.file apiPath)).map (·.path.components) =
      (stems (selected filter models)).map fun s => (⟨s ++ ".py"⟩ : Path).components := by
    simp only [written, stems, SortedMap.keys, List.map_flatMap, List.flatMap_map, List.map_map]
    rfl
  have hcomponents : ∀ s ∈ stems (selected filter models),
      (⟨s ++ ".py"⟩ : Path).components = [component s] := fun s hs =>
    Path.components_fileName (isFileName_of_mem_stems hmodules hs)
  rw [hfiles, List.map_append, hpaths, List.map_congr_left hcomponents, List.map_append,
    List.map_singleton, List.map_singleton, hpackage]

/-- The files have paths of their own when no group is called like the package file, or after the
plain tables of another one. -/
theorem nodup_paths_iff {apiPath filter : String}
    (hmodules : ∀ m ∈ selected filter models, '/' ∉ m.module.toList) :
    ((files apiPath filter models).map (·.path.components)).Nodup ↔
      (∀ m ∈ selected filter models, m.group ≠ "__init__") ∧
        ∀ m ∈ selected filter models, ∀ n ∈ selected filter models,
          n.group ≠ stem m.group .plain := by
  have hinjective : Function.Injective fun s => [component s] := fun a b h =>
    component_injective (List.singleton_injective h)
  -- the plain tables are no package file: their stems end in another way
  have hinit : "__init__" ∉ stems (selected filter models) ↔
      ∀ m ∈ selected filter models, m.group ≠ "__init__" := by
    rw [mem_stems_iff]
    constructor
    · exact fun h m hm heq => h ⟨m, hm, .declarative, heq.symm⟩
    · rintro h ⟨m, hm, form, heq⟩
      cases form with
      | declarative => exact h m hm heq.symm
      | plain =>
          have hlast := congrArg (·.toList.getLast?) heq
          simp [stem] at hlast
  have hgroups := nodup_stems_iff (nodup_keys_groups (selected filter models))
  rw [components_files hmodules, List.nodup_map_iff hinjective, List.nodup_append_comm,
    List.singleton_append, List.nodup_cons, hinit, stems, hgroups]
  simp only [mem_keys_groups, List.forall_mem_map]

theorem nodup_headers_iff {ms : List ExportedModel} {form : TableForm} :
    (ms.map (·.header form)).Nodup ↔ (ms.map (·.variableName)).Nodup := by
  simp only [List.Nodup, List.pairwise_map, ne_eq, ExportedModel.header_inj]

/-- Models have names of their own within each group when their groups and names together are
distinct. -/
theorem nodup_names_iff :
    (∀ group ∈ models.map (·.group),
        ((models.filter (·.group == group)).map (·.variableName)).Nodup) ↔
      (models.map fun m => (m.group, m.variableName)).Nodup := by
  simp only [List.Nodup, List.pairwise_map, List.pairwise_filter]
  simp only [List.pairwise_iff_forall_sublist, beq_iff_eq, ne_eq, Prod.mk.injEq, not_and]
  constructor
  · intro h m n hmn hgroup
    have hm : m ∈ models := hmn.subset List.mem_cons_self
    exact h m.group (List.mem_map_of_mem hm) hmn rfl hgroup.symm
  · intro h group _ m n hmn hm hn
    exact h hmn (hm.trans hn.symm)

end Distinct

/-- No model is lost: the files have paths of their own, and every model is defined by one module
of each form, in which no other one has its name. -/
structure Keeps (apiPath filter : String) (models : List ExportedModel) : Prop where
  paths : ((files apiPath filter models).map (·.path.components)).Nodup
  defined : ∀ m ∈ selected filter models, ∀ form,
    ∃! w, w ∈ written (selected filter models) ∧ w.form = form ∧ m ∈ w.models
  names : ∀ w ∈ written (selected filter models),
    ((Block.sections (w.blocks apiPath)).map (·.1)).Nodup

/-- Every model has its module in each form: that of its group. -/
theorem existsUnique_written {models : List ExportedModel} {m : ExportedModel} (hm : m ∈ models)
    (form : TableForm) : ∃! w, w ∈ written models ∧ w.form = form ∧ m ∈ w.models := by
  have hw : ⟨m.group, form, ofGroup models m.group⟩ ∈ written models :=
    mem_written_iff.mpr ⟨List.mem_map_of_mem hm, rfl⟩
  refine ⟨_, ⟨hw, rfl, mem_ofGroup_iff.mpr ⟨hm, rfl⟩⟩, ?_⟩
  rintro ⟨group, form', ms⟩ ⟨hother, rfl, hmem⟩
  obtain ⟨-, hms⟩ := mem_written_iff.mp hother
  obtain rfl : ms = ofGroup models group := hms
  obtain ⟨-, rfl⟩ := mem_ofGroup_iff.mp hmem
  rfl

theorem names_iff {models : List ExportedModel} (apiPath : String) :
    (∀ w ∈ written models, ((Block.sections (w.blocks apiPath)).map (·.1)).Nodup) ↔
      (models.map fun m => (m.group, m.variableName)).Nodup := by
  have hheaders : ∀ w ∈ written models, ((Block.sections (w.blocks apiPath)).map (·.1)).Nodup ↔
      ((models.filter (·.group == w.group)).map (·.variableName)).Nodup := by
    intro w hw
    rw [Written.blocks, headers_module, nodup_headers_iff, (mem_written_iff.mp hw).2, ofGroup]
    exact ((sortByName_perm _ _).map _).nodup_iff
  rw [← nodup_names_iff]
  constructor
  · intro h group hgroup
    have hw : ⟨group, .plain, ofGroup models group⟩ ∈ written models :=
      mem_written_iff.mpr ⟨hgroup, rfl⟩
    exact (hheaders _ hw).mp (h _ hw)
  · exact fun h w hw => (hheaders w hw).mpr (h _ (mem_written_iff.mp hw).1)

/-- The files are the modules of the groups and the package file, and a module defines its models
and nothing else.  No model is lost exactly when no group is called like the package file or after
the plain tables of another one, and the models of each group have variables of their own. -/
theorem keeps_models_iff (apiPath filter : String) (models : List ExportedModel)
    (hmodules : ∀ m ∈ selected filter models, '/' ∉ m.module.toList) :
    (∃ imports, files apiPath filter models =
        (written (selected filter models)).map (·.file apiPath) ++ [⟨⟨"__init__.py"⟩, imports⟩]) ∧
      (∀ w ∈ written (selected filter models),
        Block.sections (w.blocks apiPath) =
            w.models.flatMap (fun m => Block.sections (m.blocks w.form)) ∧
          (Block.sections (w.blocks apiPath)).map (·.1) = w.models.map (·.header w.form)) ∧
      (Keeps apiPath filter models ↔
        (∀ m ∈ selected filter models, m.group ≠ "__init__") ∧
          (∀ m ∈ selected filter models, ∀ n ∈ selected filter models,
            n.group ≠ stem m.group .plain) ∧
          ((selected filter models).map fun m => (m.group, m.variableName)).Nodup) := by
  refine ⟨files_eq apiPath filter models, fun w _ =>
    ⟨sections_module apiPath w.form w.models, headers_module apiPath w.form w.models⟩, ?_⟩
  rw [← and_assoc, ← nodup_paths_iff hmodules, ← names_iff apiPath]
  exact ⟨fun h => ⟨h.paths, h.names⟩, fun h => ⟨h.1, fun m hm => existsUnique_written hm, h.2⟩⟩

end TableModule

namespace TableModuleWitness

open TableModule

def column : Column := ⟨none, none, none, none, none, none, none⟩

def exported (variableName module : String) : ExportedModel :=
  let id : DataType := { DataType.scalar .int with column := some column }
  ⟨variableName, module, ⟨variableName, "", ⟨[("id", id)]⟩, []⟩⟩

/-- Two modules end in the same name, and their models have names of their own. -/
def shop : List ExportedModel :=
  [exported "User" "shop.user", exported "Role" "shop.role", exported "Guest" "shop.visit.user",
    exported "User" "bank.user"]

theorem shop_models_kept :
    (∀ m ∈ selected "shop" shop, '/' ∉ m.module.toList) ∧ Keeps "src" "shop" shop := by
  have hmodules : ∀ m ∈ selected "shop" shop, '/' ∉ m.module.toList := by decide +kernel
  obtain ⟨-, -, hkeeps⟩ := keeps_models_iff "src" "shop" shop hmodules
  exact ⟨hmodules, hkeeps.mpr ⟨by decide +kernel, by decide +kernel, by decide +kernel⟩⟩

/-- One module is called after the plain tables of the other. -/
def overlapping : List ExportedModel :=
  [exported "User" "app.user", exported "Role" "app.user_schema"]

/-- The declarative classes of one group take the place of the plain tables of another. -/
theorem not_all_models_kept :
    ¬ ∀ (apiPath filter : String) (models : List ExportedModel),
      (models.map fun m => (m.module, m.variableName)).Nodup → Keeps apiPath filter models := by
  intro hall
  have hpaths := (hall "src" "" overlapping (by decide)).paths
  revert hpaths
  decide +kernel

end TableModuleWitness

end ServiceGen

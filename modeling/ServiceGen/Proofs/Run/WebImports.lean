import ServiceGen.Proofs.Message.Docstrings
import ServiceGen.Proofs.Run.WebFailure
import ServiceGen.Proofs.Run.WebFiles
import ServiceGen.Proofs.Text.Lines

/-!
The imports of a generated web package.  Where a module is written, where its data classes are,
which directories become packages, and what the imports say is found out in four ways, from one name
and one list of packages; the main statement, `WebRun.imports_resolve`, is that they agree.
-/

namespace ServiceGen

theorem Component.map_text_name (names : List String) :
    (names.map Component.name).map Component.text = names := by
  rw [List.map_map]
  exact List.map_id names

namespace Service

/-- The name of the module that declares the service is made of identifiers. -/
def HasDottedModule (s : Service) : Prop :=
  ∀ part ∈ Text.splitAt '.' s.declaredAs.module, Naming.isIdentifier part = true

/-- The parts of the name of the resource module, as seen from the output. -/
def moduleNames (s : Service) : List String :=
  s.packageNames ++ [s.webStem]

/-- The packages are named after the last parts of the module. -/
theorem packageNames_subset (s : Service) :
    s.packageNames ⊆ Text.splitAt '.' s.declaredAs.module := by
  rw [packageNames]
  split
  · rename_i before after hcut
    obtain ⟨hmodule, -⟩ := Text.cut?_eq_some (by decide) hcut
    have hpoint : s.declaredAs.module.toList =
        (before ++ "define.api".toList) ++ '.' :: after := by
      rw [hmodule, List.append_assoc, List.append_assoc]
      rfl
    rw [Text.splitAt, Text.splitAt, hpoint, Text.pieces_append_cons (by simp), List.map_append,
      String.toList_ofList]
    exact List.subset_append_right _ _
  · exact List.nil_subset _

variable {s : Service}

theorem isWordChar_of_mem_moduleNames (hnamed : s.IsNamed) (hmodule : s.HasDottedModule) :
    ∀ name ∈ s.moduleNames, name ≠ "" ∧ ∀ c ∈ name.toList, Naming.IsWordChar c := by
  rw [moduleNames, List.forall_mem_append, List.forall_mem_singleton]
  refine ⟨fun name hname => ?_, Naming.snake_ne_empty hnamed,
    Naming.isWordChar_of_mem_snake hnamed⟩
  have hidentifier := hmodule name (s.packageNames_subset hname)
  refine ⟨fun hempty => ?_, Naming.isWordChar_of_isIdentifier hidentifier⟩
  exact Naming.toList_ne_nil_of_isIdentifier hidentifier (String.toList_eq_nil_iff.mpr hempty)

theorem isFileName_of_mem_packageNames (hnamed : s.IsNamed) (hmodule : s.HasDottedModule) :
    ∀ name ∈ s.packageNames, Path.IsFileName name := by
  intro name hname
  obtain ⟨hne, hchars⟩ := isWordChar_of_mem_moduleNames hnamed hmodule name
    (List.mem_append_left _ hname)
  exact (Path.isFileName_of_isWordChar hne hchars).1

/-- The components of the module path are the parts of the name. -/
theorem components_modulePath (hnamed : s.IsNamed) (hmodule : s.HasDottedModule) :
    s.modulePath.components.map Component.text = s.moduleNames := by
  rw [s.modulePath_eq, Path.components_push hnamed.isFileName.1, packagePath,
    Path.components_foldl_push (isFileName_of_mem_packageNames hnamed hmodule), List.map_append,
    List.map_append, Component.map_text_name]
  rfl

/-- The classes that the resource module of a service takes from its data classes. -/
def containerClasses (s : Service) : List String :=
  s.operations.flatMap fun o => [s.containerClass o .argument, s.containerClass o .result]

/-- Each container of each operation has a class. -/
theorem exists_class {o : Operation} (ho : o ∈ s.operations) (c : Container) :
    ∃ d ∈ DataClass.ofService s, d.path = .top s.name o.name c := by
  have hfields : ∀ path description fields,
      ∃ d ∈ DataClass.ofFields path description fields, d.path = path := fun _ _ _ =>
    ⟨_, List.mem_concat_self, rfl⟩
  have hoperation : ∃ d ∈ DataClass.ofOperation s.name o, d.path = .top s.name o.name c := by
    cases c with
    | argument => exact (hfields _ _ _).imp fun d hd => ⟨List.mem_append_left _ hd.1, hd.2⟩
    | result => exact (hfields _ _ _).imp fun d hd => ⟨List.mem_append_right _ hd.1, hd.2⟩
  obtain ⟨d, hd, hpath⟩ := hoperation
  exact ⟨d, List.mem_flatMap.mpr ⟨o, ho, hd⟩, hpath⟩

/-- What is imported from the data classes is defined there. -/
theorem defines_containerClasses (options : StubOptions) {name : String}
    (hname : name ∈ s.containerClasses) :
    "class " ++ name ++ "(RPCDict):" ∈ Block.headers (s.definitionsModule options) := by
  obtain ⟨o, ho, hname⟩ := List.mem_flatMap.mp hname
  obtain ⟨c, rfl⟩ : ∃ c, name = s.containerClass o c := by
    simp only [List.mem_cons, List.not_mem_nil, or_false] at hname
    exact hname.elim (⟨_, ·⟩) (⟨_, ·⟩)
  obtain ⟨d, hd, hpath⟩ := exists_class ho c
  rw [Block.headers, DataClass.sections_definitionsModule, List.map_map]
  refine List.mem_map.mpr ⟨d, hd, ?_⟩
  rw [Function.comp_apply, DataClass.heading, hpath, containerClass]

end Service

namespace WebRun

open Job FileTree

/-- The file of a module, with the directories that lead to it from the output. -/
def moduleFile (output : Path) (dirs : List String) (stem : String) : Path :=
  (dirs.foldl Path.push output).push (stem ++ ".py")

/-- The parts of the name of the module from which a line imports everything, as seen from the
package. -/
def importedModule? (line : String) : Option (List String) :=
  ((Text.stripStart? "from ." line).bind (Text.stripEnd? " import *")).map (Text.splitAt '.')

variable {web : WebSettings} {output enumHolders : Path} {services : List Service}
  {scanned : EnumSet} {w : Workspace} {written : List Path}

section Registry

/-- The line that imports everything from a module of the package. -/
def importLine (names : List String) : String :=
  "from ." ++ ".".intercalate names ++ " import *"

theorem importedModule?_importLine {names : List String} (hne : names ≠ [])
    (hnames : ∀ name ∈ names, '.' ∉ name.toList) :
    importedModule? (importLine names) = some names := by
  have hstart : Text.stripStart? "from ." (importLine names) =
      some (".".intercalate names ++ " import *") :=
    Text.stripStart?_eq_some_iff.mpr (String.append_assoc ..)
  have hend : Text.stripEnd? " import *" (".".intercalate names ++ " import *") =
      some (".".intercalate names) :=
    Text.stripEnd?_eq_some_iff.mpr rfl
  have hpoint : "." = String.singleton '.' := rfl
  rw [importedModule?, hstart, Option.bind_some, hend, Option.map_some, hpoint,
    Text.splitAt_intercalate hne hnames]

example : importedModule? "from .shop.ad import *" = some ["shop", "ad"] := by decide

theorem notMem_importLine {names : List String}
    (hnames : ∀ name ∈ names, ∀ c ∈ name.toList, Naming.IsWordChar c) {c : Char}
    (hword : ¬ Naming.IsWordChar c) (hc : c ∉ "from . import *".toList) :
    c ∉ (importLine names).toList := by
  have hinner : c ∉ (".".intercalate names).toList := by
    intro hmem
    rcases Naming.mem_intercalate hmem with hmem | ⟨name, hname, hmem⟩
    · obtain rfl : c = '.' := by simpa using hmem
      exact hc (by decide)
    · exact hword (hnames name hname c hmem)
  rw [importLine, String.toList_append, String.toList_append]
  simp_all

def registered (services : List Service) : List (List String) :=
  services.map Service.moduleNames ++ [["ss_enum"]]

variable (hnamed : ∀ s ∈ services, s.IsNamed) (hmodules : ∀ s ∈ services, s.HasDottedModule)

include hnamed hmodules

theorem isWordChar_of_mem_registered {names : List String} (hnames : names ∈ registered services) :
    names ≠ [] ∧ ∀ name ∈ names, name ≠ "" ∧ ∀ c ∈ name.toList, Naming.IsWordChar c := by
  rw [registered, List.mem_append, List.mem_singleton, List.mem_map] at hnames
  rcases hnames with ⟨s, hs, rfl⟩ | rfl
  · exact ⟨by simp [Service.moduleNames],
      Service.isWordChar_of_mem_moduleNames (hnamed s hs) (hmodules s hs)⟩
  · exact ⟨by decide, by simp [Naming.IsWordChar]⟩

/-- The lines of the registry are the imports of the modules, in some order. -/
theorem lines_registryModule :
    (Text.lines (WebResource.registryModule services)).Perm
      ((registered services).map importLine) := by
  have himports : (services.map fun s => "from ." ++
      ".".intercalate (s.modulePath.components.map Component.text) ++ " import *") =
      (services.map Service.moduleNames).map importLine := by
    rw [List.map_map]
    exact List.map_congr_left fun s hs => by
      rw [Service.components_modulePath (hnamed s hs) (hmodules s hs)]
      rfl
  have hregistered : (((services.map Service.moduleNames).map importLine).mergeSort (· ≤ ·) ++
      ["from .ss_enum import *"]).Perm ((registered services).map importLine) := by
    rw [registered, List.map_append]
    exact (List.mergeSort_perm _ _).append_right _
  have hlines : ∀ line ∈ (registered services).map importLine,
      '\n' ∉ line.toList ∧ '\r' ∉ line.toList := by
    intro line hline
    obtain ⟨names, hnames, rfl⟩ := List.mem_map.mp hline
    have hchars := (isWordChar_of_mem_registered hnamed hmodules hnames).2
    exact ⟨notMem_importLine (fun name hname => (hchars name hname).2) (by decide) (by decide),
      notMem_importLine (fun name hname => (hchars name hname).2) (by decide) (by decide)⟩
  rw [WebResource.registryModule, himports, Text.lines_intercalate (by simp)]
  · exact hregistered
  · exact fun line hline => hlines line (hregistered.mem_iff.mp hline)

end Registry

section Places

/-- The directories and the stems of the files below the output. -/
def stems (services : List Service) : List (List String × String) :=
  services.flatMap (fun s => [(s.packageNames, s.webStem), (s.packageNames, s.webStem ++ "_def")])
    ++ [([], "api_reg"), ([], "ss_enum")]

theorem map_join_modulePaths (output : Path) {s : Service} (hnamed : s.IsNamed)
    (hmodule : s.HasDottedModule) :
    (modulePaths s).map output.join =
      [moduleFile output s.packageNames s.webStem,
        moduleFile output s.packageNames (s.webStem ++ "_def")] := by
  obtain ⟨hstem, hpoint⟩ := hnamed.isFileName
  have hnames := Service.isFileName_of_mem_packageNames hnamed hmodule
  have hending : ∀ ending : String, '/' ∉ ending.toList → 2 < ending.length →
      Path.IsFileName (s.webStem ++ ending) := fun ending =>
    Path.isFileName_append ending hstem.1
  have hjoined : s.webStem ++ "_def.py" = s.webStem ++ "_def" ++ ".py" := by
    rw [String.append_assoc]
    rfl
  rw [modulePaths, List.map_cons, List.map_singleton, s.modulePath_eq, Service.packagePath,
    Path.withExtension_push hstem hpoint, Path.withFileName_foldl_push hnames hstem,
    Path.join_foldl_push_empty hnames (hending _ (by decide) (by decide)),
    Path.join_foldl_push_empty hnames (hending _ (by decide) (by decide)), hjoined]
  rfl

variable (hnamed : ∀ s ∈ services, s.IsNamed) (hmodules : ∀ s ∈ services, s.HasDottedModule)

include hnamed hmodules

theorem webFiles_eq (output : Path) :
    webFiles output services = (stems services).map fun (dirs, stem) =>
      moduleFile output dirs stem := by
  rw [webFiles, List.map_append, stems, List.map_append, List.map_flatMap, List.map_flatMap]
  exact congrArg (· ++ _) (List.flatMap_congr fun s hs =>
    map_join_modulePaths output (hnamed s hs) (hmodules s hs))

theorem isFileName_of_mem_stems {dirs : List String} {stem : String}
    (h : (dirs, stem) ∈ stems services) :
    ∀ name ∈ dirs ++ [stem ++ ".py"], Path.IsFileName name := by
  have hfile : ∀ {text : String}, '/' ∉ text.toList → Path.IsFileName (text ++ ".py") :=
    fun htext => Path.isFileName_append ".py" htext (by decide) (by decide)
  rw [List.forall_mem_append, List.forall_mem_singleton]
  rw [stems, List.mem_append, List.mem_flatMap] at h
  rcases h with ⟨s, hs, h⟩ | h
  · have hnames := Service.isFileName_of_mem_packageNames (hnamed s hs) (hmodules s hs)
    have hslash := (hnamed s hs).isFileName.1.1
    simp only [List.mem_cons, List.not_mem_nil, or_false, Prod.mk.injEq] at h
    rcases h with ⟨rfl, rfl⟩ | ⟨rfl, rfl⟩
    · exact ⟨hnames, hfile hslash⟩
    · exact ⟨hnames, hfile (by simpa using hslash)⟩
  · simp only [List.mem_cons, List.not_mem_nil, or_false, Prod.mk.injEq] at h
    rcases h with ⟨rfl, rfl⟩ | ⟨rfl, rfl⟩
    · exact ⟨nofun, hfile (by decide)⟩
    · exact ⟨nofun, hfile (by decide)⟩

/-- No two of the files below the output lead to the same place when they are distinct. -/
theorem pairwise_apart (hdistinct : ((webFiles output services).map Path.components).Nodup) :
    (webFiles output services).Pairwise Apart := by
  have hpush : ∀ dirs stem,
      moduleFile output dirs stem = (dirs ++ [stem ++ ".py"]).foldl Path.push output :=
    fun _ _ => (List.foldl_concat ..).symm
  refine (List.pairwise_map.mp hdistinct).imp_of_mem fun {p p'} hp hp' hne => ?_
  rw [webFiles_eq hnamed hmodules] at hp hp'
  obtain ⟨⟨dirs, stem⟩, hmem, rfl⟩ := List.mem_map.mp hp
  obtain ⟨⟨dirs', stem'⟩, hmem', rfl⟩ := List.mem_map.mp hp'
  simp only [hpush] at hne ⊢
  exact apart_of_ne (isFileName_of_mem_stems hnamed hmodules hmem)
    (isFileName_of_mem_stems hnamed hmodules hmem') (fun heq => hne (by rw [heq])) output

end Places

section Packages

theorem mem_below {dir : Path} {parts : List String} {k : Nat} (hpos : 0 < k)
    (hle : k ≤ parts.length) : (parts.take k).foldl Path.push dir ∈ below dir parts := by
  induction parts generalizing dir k with
  | nil => exact absurd hpos (by simpa using hle)
  | cons part rest ih =>
      obtain ⟨k, rfl⟩ := Nat.exists_eq_succ_of_ne_zero hpos.ne'
      rw [List.take_succ_cons, List.foldl_cons, below, List.mem_cons]
      cases k with
      | zero => exact .inl rfl
      | succ k => exact .inr (ih (Nat.succ_pos k) (Nat.le_of_succ_le_succ hle))

/-- When all services can be generated, the directories of all of their files become packages. -/
theorem packagesOf_subset {stubs : StubOptions}
    (hservices : ∀ s ∈ services, ∃ files, WebResource.files stubs s = .ok files) {s : Service}
    (hs : s ∈ services) {files : List GeneratedFile}
    (hfiles : WebResource.files stubs s = .ok files) {f : GeneratedFile} (hf : f ∈ files) :
    packagesOf output f ⊆ packagesBefore output stubs services := by
  induction services with
  | nil => cases hs
  | cons t rest ih =>
      rw [List.forall_mem_cons] at hservices
      obtain ⟨⟨files', hfiles'⟩, hrest⟩ := hservices
      rw [packagesBefore, hfiles']
      rcases List.mem_cons.mp hs with rfl | hs
      · obtain rfl := Except.ok.inj (hfiles'.symm.trans hfiles)
        exact List.subset_append_of_subset_left _ fun dir hdir =>
          List.mem_flatMap.mpr ⟨f, hf, hdir⟩
      · exact List.subset_append_of_subset_right _ (ih hrest hs)

theorem packagesOf_resource {s : Service} (hnamed : s.IsNamed) (hmodule : s.HasDottedModule)
    (contents : String) :
    packagesOf output ⟨s.modulePath.withExtension "py", contents⟩ =
      below output s.packageNames := by
  obtain ⟨hstem, hpoint⟩ := hnamed.isFileName
  have hnames := Service.isFileName_of_mem_packageNames hnamed hmodule
  have hfile : Path.IsFileName (s.webStem ++ ".py") :=
    Path.isFileName_append ".py" hstem.1 (by decide) (by decide)
  have hparent : (s.modulePath.withExtension "py").parent? = some s.packagePath := by
    rw [s.modulePath_eq, Path.withExtension_push hstem hpoint]
    exact Path.parent?_foldl_push hnames hfile
  simp only [packagesOf, hparent, Option.map_some, Option.getD_some]
  rw [Service.packagePath, Path.components_foldl_push hnames]
  exact congrArg _ (Component.map_text_name _)

end Packages

section Contents

/-- The path leads to a file with the text, or the enumerations have been written over it. -/
def Holds (left : FileTree) (enumHolders p : Path) (text : String) : Prop :=
  left.read p = .ok text ∨
    ∃ place, left.resolve p = .ok place ∧ left.resolve enumHolders = .ok place

/-- Files that lead to different places are read as they were written. -/
theorem read_of_writeFiles {root : Path} {files : List GeneratedFile}
    (hrun : (writeFiles root files).result w = .ok written)
    (hapart : (files.map fun f => root.join f.path).Pairwise Apart) :
    ∀ f ∈ files, ((writeFiles root files).after w).tree.read (root.join f.path) =
      .ok f.contents := by
  induction files generalizing w written with
  | nil => exact nofun
  | cons first rest ih =>
      have hcons : writeFiles root (first :: rest) =
          (writeFile (root.join first.path) first.contents >>= fun _ =>
            writeFiles root rest >>= fun paths => pure (root.join first.path :: paths)) := by
        rw [writeFiles, List.mapM_cons, bind_assoc]
        rfl
      rw [List.map_cons, List.pairwise_cons] at hapart
      rw [hcons] at hrun ⊢
      obtain ⟨⟨⟩, hfirst, hrun⟩ := result_bind_eq_ok.mp hrun
      obtain ⟨paths, hrest, -⟩ := result_bind_eq_ok.mp hrun
      have hafter : (writeFiles root rest >>= fun paths =>
          pure (root.join first.path :: paths)).after
            ((writeFile (root.join first.path) first.contents).after w) =
          (writeFiles root rest).after
            ((writeFile (root.join first.path) first.contents).after w) :=
        after_bind_of_ok hrest
      rw [after_bind_of_ok hfirst, hafter, List.forall_mem_cons]
      refine ⟨?_, ih hrest hapart.2⟩
      -- what is written later is written elsewhere
      have hwrites : (writeFiles root rest).Writes (fun _ => False)
          (· ∈ rest.map fun f => root.join f.path) :=
        writes_mapM fun f hf =>
          writes_bind (writes_writeFile (List.mem_map_of_mem hf) _) fun _ => writes_pure _
      refine hwrites.read_eq_ok (read_of_writeFile hfirst) fun q hq place hplace => ?_
      exact hapart.1 q (hq.resolve_left id) _ place hplace

/-- What is written elsewhere, or over it, is all that can become of a file. -/
theorem holds_after_writeFile {p : Path} {text holders : String}
    (hread : w.tree.read p = .ok text) :
    Holds ((writeFile enumHolders holders).after w).tree enumHolders p text := by
  by_cases hover : ∃ place, ((writeFile enumHolders holders).after w).tree.resolve p = .ok place ∧
      ((writeFile enumHolders holders).after w).tree.resolve enumHolders = .ok place
  · exact .inr hover
  · have hwrites : (writeFile enumHolders holders).Writes (fun _ => False) (· ∈ [enumHolders]) :=
      writes_writeFile (List.mem_singleton_self enumHolders) holders
    refine .inl (hwrites.read_eq_ok hread fun q hq place hplace hover' => ?_)
    obtain rfl := List.mem_singleton.mp (hq.resolve_left id)
    exact hover ⟨place, hplace, hover'⟩

end Contents

/-- What a successful generation has made and left behind. -/
structure Leaves (web : WebSettings) (output enumHolders : Path) (services : List Service)
    (files : List GeneratedFile) (left : FileTree) : Prop where
  paths : files.map (fun f => output.join f.path) = webFiles output services
  packages : ∀ dir ∈ packages web output services, left.exists? (dir.push packageFile) = true
  texts : (files.map fun f => output.join f.path).Pairwise Apart →
    ∀ path contents, ⟨path, contents⟩ ∈ files → Holds left enumHolders (output.join path) contents

theorem exists_leaves
    (hrun : (modules web output enumHolders services scanned).result w = .ok written) :
    ∃ generated, texts web services scanned = .ok generated ∧
      Leaves web output enumHolders services generated.1
        ((modules web output enumHolders services scanned).after w).tree := by
  have hgives := modules_give web output enumHolders services scanned w written hrun
  rw [modules_eq] at hrun ⊢
  obtain ⟨⟨⟩, hmade, hrun⟩ := result_bind_eq_ok.mp hrun
  have hpackages := exists_of_forM_ensurePackage hmade
  rw [after_bind_of_ok hmade]
  generalize ((packages web output services).forM ensurePackage).after w = prepared at *
  cases htexts : texts web services scanned with
  | error e =>
      rw [htexts] at hrun
      cases hrun
  | ok generated =>
      refine ⟨generated, rfl, ?_⟩
      rw [htexts, lift_ok, pure_bind, writeTexts] at hrun
      rw [lift_ok, pure_bind, writeTexts]
      obtain ⟨paths, hfiles, hrun⟩ := result_bind_eq_ok.mp hrun
      obtain ⟨⟨⟩, hholders, hrun⟩ := result_bind_eq_ok.mp hrun
      rw [after_bind_of_ok hfiles, after_bind_of_ok hholders]
      obtain rfl := writeFiles_give output generated.1 prepared paths hfiles
      obtain rfl := Except.ok.inj hrun
      have hwrites : ∀ p text, (writeFile p text).Writes (fun _ => True) (fun _ => True) :=
        fun p text => writes_writeFile trivial text
      have hgrows : (writeFiles output generated.1).Writes (fun _ => True) (fun _ => True) :=
        writes_mapM fun f _ => writes_bind (hwrites _ _) fun _ => writes_pure _
      refine ⟨?_, fun dir hdir => ?_, fun hapart path contents hf => ?_⟩
      · have hpaths := List.append_cancel_right hgives
        rwa [List.map_map] at hpaths
      · exact ((hgrows.grows _).trans ((hwrites _ _).grows _)).exists? (hpackages dir hdir)
      · exact holds_after_writeFile (read_of_writeFiles hfiles hapart ⟨path, contents⟩ hf)

/-- The options with which the modules of services are generated. -/
def stubOptions (web : WebSettings) : StubOptions :=
  { fromProject := "", runtimePath := web.runtimePath, apiPath := web.apiPath }

/-- All services can be generated, their files are written, and the registry after them. -/
theorem texts_eq_ok {generated : List GeneratedFile × EnumResource.Modules}
    (h : texts web services scanned = .ok generated) :
    (∀ s ∈ services, ∃ files, WebResource.files (stubOptions web) s = .ok files ∧
      files ⊆ generated.1) ∧
    ⟨⟨"api_reg.py"⟩, WebResource.registryModule services⟩ ∈ generated.1 := by
  rw [texts] at h
  obtain ⟨files, hfiles, h⟩ := Fallible.bind_eq_ok_iff.mp h
  obtain ⟨enums, -, h⟩ := Fallible.bind_eq_ok_iff.mp h
  obtain ⟨enumModules, -, h⟩ := Fallible.bind_eq_ok_iff.mp h
  obtain rfl := Except.ok.inj h
  refine ⟨fun s hs => ?_, List.mem_append_right _ List.mem_cons_self⟩
  obtain ⟨own, hown, hs⟩ := exists_right_of_forall₂ (Fallible.mapM_eq_ok_iff.mp hfiles) hs
  refine ⟨own, hs, List.subset_append_of_subset_left _ fun f hf => ?_⟩
  exact List.mem_flatten.mpr ⟨own, hown, hf⟩

/-- The resource module of a service imports classes from the module next to it, which defines
them. -/
structure FindsClasses (web : WebSettings) (output enumHolders : Path) (s : Service)
    (written : List Path) (left : FileTree) (blocks : List Block) : Prop where
  generated : WebResource.module (stubOptions web) s = .ok blocks
  resource_mem : moduleFile output s.packageNames s.webStem ∈ written
  resource : Holds left enumHolders (moduleFile output s.packageNames s.webStem)
    (Block.render blocks)
  imported : s.containerClasses ≠ [] →
    .line ("from ." ++ s.webStem ++ "_def import " ++ ", ".intercalate s.containerClasses) ∈ blocks
  definitions_mem : moduleFile output s.packageNames (s.webStem ++ "_def") ∈ written
  definitions : Holds left enumHolders (moduleFile output s.packageNames (s.webStem ++ "_def"))
    (Block.render (s.definitionsModule (stubOptions web)))
  defined : ∀ name ∈ s.containerClasses,
    "class " ++ name ++ "(RPCDict):" ∈ Block.headers (s.definitionsModule (stubOptions web))

/-- The registry imports what is written, from packages, and all of the resource modules; and each
of these finds its classes. -/
structure ImportsResolve (web : WebSettings) (output enumHolders : Path) (services : List Service)
    (written : List Path) (left : FileTree) : Prop where
  registry_mem : moduleFile output [] "api_reg" ∈ written
  registry : Holds left enumHolders (moduleFile output [] "api_reg")
    (WebResource.registryModule services)
  imported : ∀ line ∈ Text.lines (WebResource.registryModule services), ∃ dirs stem,
    importedModule? line = some (dirs ++ [stem]) ∧ moduleFile output dirs stem ∈ written ∧
      ∀ k ≤ dirs.length,
        left.exists? (((dirs.take k).foldl Path.push output).push packageFile) = true
  registered : ∀ names ∈ registered services,
    ∃ line ∈ Text.lines (WebResource.registryModule services), importedModule? line = some names
  resources : ∀ s ∈ services, ∃ blocks,
    FindsClasses web output enumHolders s written left blocks

theorem mem_module_of_containerClasses {options : StubOptions} {s : Service} {blocks : List Block}
    (h : WebResource.module options s = .ok blocks) (hne : s.containerClasses ≠ []) :
    .line ("from ." ++ s.webStem ++ "_def import " ++ ", ".intercalate s.containerClasses) ∈
      blocks := by
  have himport : WebResource.containerImport s =
      [.line ("from ." ++ s.webStem ++ "_def import " ++ ", ".intercalate s.containerClasses)] :=
    if_neg (c := s.containerClasses.isEmpty = true) (by simpa using hne)
  rw [WebResource.module] at h
  obtain ⟨models, -, h⟩ := Fallible.bind_eq_ok_iff.mp h
  obtain rfl := Except.ok.inj h
  simp [WebResource.imports, himport]

section Resolve

variable (hnamed : ∀ s ∈ services, s.IsNamed) (hmodules : ∀ s ∈ services, s.HasDottedModule)

include hnamed hmodules

theorem mem_packages {s : Service} (hs : s ∈ services)
    (hservices : ∀ s ∈ services, ∃ files, WebResource.files (stubOptions web) s = .ok files)
    {k : Nat} (hk : k ≤ s.packageNames.length) :
    (s.packageNames.take k).foldl Path.push output ∈ packages web output services := by
  rw [packages, List.mem_cons]
  rcases Nat.eq_zero_or_pos k with rfl | hpos
  · exact .inl rfl
  · obtain ⟨files, hfiles⟩ := hservices s hs
    obtain ⟨blocks, -, rfl⟩ := files_eq_ok hfiles
    refine .inr (packagesOf_subset hservices hs hfiles List.mem_cons_self ?_)
    rw [packagesOf_resource (hnamed s hs) (hmodules s hs)]
    exact mem_below hpos hk

/-- Behind the names that the registry imports stands a file in directories that become packages. -/
theorem exists_stem_of_mem_registered
    (hservices : ∀ s ∈ services, ∃ files, WebResource.files (stubOptions web) s = .ok files)
    {names : List String} (hnames : names ∈ registered services) :
    ∃ dirs stem, names = dirs ++ [stem] ∧ (dirs, stem) ∈ stems services ∧
      ∀ k ≤ dirs.length, (dirs.take k).foldl Path.push output ∈ packages web output services := by
  rw [registered, List.mem_append, List.mem_map, List.mem_singleton] at hnames
  rcases hnames with ⟨s, hs, rfl⟩ | rfl
  · refine ⟨s.packageNames, s.webStem, rfl, ?_, fun k hk =>
      mem_packages hnamed hmodules hs hservices hk⟩
    exact List.mem_append_left _ (List.mem_flatMap.mpr ⟨s, hs, List.mem_cons_self⟩)
  · refine ⟨[], "ss_enum", rfl, List.mem_append_right _ (by simp), fun k _ => ?_⟩
    rw [List.take_nil]
    exact List.mem_cons_self

theorem moduleFile_mem {dirs : List String} {stem : String} (h : (dirs, stem) ∈ stems services) :
    moduleFile output dirs stem ∈ webFiles output services ++ [enumHolders] := by
  rw [webFiles_eq hnamed hmodules]
  exact List.mem_append_left _ (List.mem_map.mpr ⟨_, h, rfl⟩)

theorem findsClasses {generated : List GeneratedFile × EnumResource.Modules} {left : FileTree}
    (htexts : texts web services scanned = .ok generated)
    (hholds : ∀ path contents, ⟨path, contents⟩ ∈ generated.1 →
      Holds left enumHolders (output.join path) contents) {s : Service} (hs : s ∈ services) :
    ∃ blocks, FindsClasses web output enumHolders s (webFiles output services ++ [enumHolders])
      left blocks := by
  obtain ⟨files, hfiles, hsubset⟩ := (texts_eq_ok htexts).1 s hs
  obtain ⟨blocks, hblocks, rfl⟩ := files_eq_ok hfiles
  have hpaths := map_join_modulePaths output (hnamed s hs) (hmodules s hs)
  obtain ⟨hresource, hrest⟩ := List.cons.inj hpaths
  obtain ⟨hdefinitions, -⟩ := List.cons.inj hrest
  have hstems : ∀ stem ∈ [s.webStem, s.webStem ++ "_def"],
      (s.packageNames, stem) ∈ stems services := by
    intro stem hstem
    refine List.mem_append_left _ (List.mem_flatMap.mpr ⟨s, hs, ?_⟩)
    simpa using hstem
  refine ⟨blocks, hblocks, ?_, ?_, mem_module_of_containerClasses hblocks, ?_, ?_,
    fun name => Service.defines_containerClasses _⟩
  · exact moduleFile_mem hnamed hmodules (hstems _ (by simp))
  · exact hresource ▸ hholds _ _ (hsubset List.mem_cons_self)
  · exact moduleFile_mem hnamed hmodules (hstems _ (by simp))
  · exact hdefinitions ▸ hholds _ _ (hsubset (List.mem_cons_of_mem _ List.mem_cons_self))

end Resolve

/-- The imports of a generated web package lead to what has been generated, when the names of the
services, and those of the modules that declare them, are made of identifiers, and its files are
distinct.  Every line of the registry imports a module that is written, and each directory that
leads to it has become a package; every resource module is imported by such a line; and the data
classes from which a resource module takes its classes are written next to it and define them. -/
theorem imports_resolve
    (hrun : (modules web output enumHolders services scanned).result w = .ok written)
    (hnamed : ∀ s ∈ services, s.IsNamed) (hmodules : ∀ s ∈ services, s.HasDottedModule)
    (hdistinct : ((webFiles output services).map Path.components).Nodup) :
    ImportsResolve web output enumHolders services written
      ((modules web output enumHolders services scanned).after w).tree := by
  obtain rfl := modules_give web output enumHolders services scanned w written hrun
  obtain ⟨generated, htexts, hleaves⟩ := exists_leaves hrun
  obtain ⟨hfiles, hregistry⟩ := texts_eq_ok htexts
  have hholds := hleaves.texts (hleaves.paths ▸ pairwise_apart hnamed hmodules hdistinct)
  have hservices : ∀ s ∈ services, ∃ files, WebResource.files (stubOptions web) s = .ok files :=
    fun s hs => (hfiles s hs).imp fun _ h => h.1
  have hlines : ∀ line, line ∈ Text.lines (WebResource.registryModule services) ↔
      ∃ names ∈ registered services, importLine names = line := fun line => by
    rw [(lines_registryModule hnamed hmodules).mem_iff, List.mem_map]
  have hread : ∀ names ∈ registered services,
      importedModule? (importLine names) = some names := by
    intro names hnames
    obtain ⟨hne, hchars⟩ := isWordChar_of_mem_registered hnamed hmodules hnames
    exact importedModule?_importLine hne fun name hname =>
      (Path.isFileName_of_isWordChar (hchars name hname).1 (hchars name hname).2).2
  refine ⟨?_, hholds _ _ hregistry, fun line hline => ?_, fun names hnames => ?_,
    fun s hs => findsClasses hnamed hmodules htexts hholds hs⟩
  · exact moduleFile_mem hnamed hmodules (List.mem_append_right _ List.mem_cons_self)
  · obtain ⟨names, hnames, rfl⟩ := (hlines line).mp hline
    obtain ⟨dirs, stem, rfl, hstem, hpackages⟩ :=
      exists_stem_of_mem_registered hnamed hmodules hservices hnames
    exact ⟨dirs, stem, hread _ hnames, moduleFile_mem hnamed hmodules hstem,
      fun k hk => hleaves.packages _ (hpackages k hk)⟩
  · exact ⟨importLine names, (hlines _).mpr ⟨names, hnames, rfl⟩, hread names hnames⟩

end WebRun

namespace WebImportsWitness

open Fallible WebRun

/-- A service with modules two directories below the output, and one with modules in the output
itself. -/
def services : List Service :=
  [⟨"AdList", ⟨"src.define.api.shop.web", "AdList"⟩, [Operation.named "get_all"], none, none⟩,
    ⟨"Home", ⟨"src.define.home", "Home"⟩, [Operation.named "show"], none, none⟩]

def generation : Job (List Path) :=
  modules Settings.standard.web ⟨"api"⟩ ⟨"enum.py"⟩ services .empty

def fresh : Workspace := { tree := .empty, programs := [], exits := [], started := [] }

theorem shop_imports_resolve :
    (∀ s ∈ services, s.IsNamed) ∧ (∀ s ∈ services, s.HasDottedModule) ∧
      ((webFiles ⟨"api"⟩ services).map Path.components).Nodup ∧
      ∃ written, generation.result fresh = .ok written ∧
        ImportsResolve Settings.standard.web ⟨"api"⟩ ⟨"enum.py"⟩ services written
          (generation.after fresh).tree := by
  have hnamed : ∀ s ∈ services, s.IsNamed := by
    unfold Service.IsNamed
    decide +kernel
  have hmodules : ∀ s ∈ services, s.HasDottedModule := by
    unfold Service.HasDottedModule
    decide +kernel
  have hdistinct : ((webFiles ⟨"api"⟩ services).map Path.components).Nodup := by decide +kernel
  have hsome : (generation.result fresh).toOption.isSome = true := by decide +kernel
  obtain ⟨written, hrun⟩ := exists_ok_of_isSome hsome
  exact ⟨hnamed, hmodules, hdistinct, written, hrun,
    imports_resolve hrun hnamed hmodules hdistinct⟩

end WebImportsWitness

end ServiceGen

import Mathlib.Data.List.Nodup
import ServiceGen.Proofs.Fallible
import ServiceGen.Proofs.Files.Job
import ServiceGen.Proofs.Files.Parent
import ServiceGen.Run.Web

/-!
The files of a generation of web modules.  Their places are decided by the names and the modules of
the services alone; the main statement, `WebRun.web_files_distinct_iff`, says when no two of them
are the same.
-/

namespace ServiceGen

namespace Service

/-- The packages that a service names for its modules. -/
def packageNames (s : Service) : List String :=
  match Text.cut? packageMark.toList s.declaredAs.module.toList with
  | some (_, after) => Text.splitAt '.' (.ofList after)
  | none => []

/-- The directory of the modules of a service, as seen from the output. -/
def packagePath (s : Service) : Path :=
  s.packageNames.foldl Path.push .empty

/-- The stem of the resource module of a service. -/
def webStem (s : Service) : String :=
  Naming.snake s.name

theorem modulePath_eq (s : Service) : s.modulePath = s.packagePath.push s.webStem := rfl

/-- The name is one that generated code can use. -/
def IsNamed (s : Service) : Prop :=
  Naming.isIdentifier s.name = true

theorem IsNamed.isFileName {s : Service} (hs : s.IsNamed) :
    Path.IsFileName s.webStem ∧ '.' ∉ s.webStem.toList :=
  Path.isFileName_of_isWordChar (Naming.snake_ne_empty hs) (Naming.isWordChar_of_mem_snake hs)

end Service

namespace WebRun

open Job

/-- The modules of a service, as seen from the output. -/
def modulePaths (s : Service) : List Path :=
  [s.modulePath.withExtension "py", s.modulePath.withFileName (s.webStem ++ "_def.py")]

/-- The files of services and enumerations below the output. -/
def webFiles (output : Path) (services : List Service) : List Path :=
  (services.flatMap modulePaths ++ [⟨"api_reg.py"⟩, ⟨"ss_enum.py"⟩] : List Path).map output.join

/-- A service leads to its resource module and the data classes next to it. -/
theorem files_eq_ok {stubs : StubOptions} {s : Service} {files : List GeneratedFile}
    (h : WebResource.files stubs s = .ok files) :
    ∃ blocks, WebResource.module stubs s = .ok blocks ∧
      files = [⟨s.modulePath.withExtension "py", Block.render blocks⟩,
        ⟨s.modulePath.withFileName (s.webStem ++ "_def.py"),
          Block.render (s.definitionsModule stubs)⟩] := by
  rw [WebResource.files] at h
  obtain ⟨blocks, hblocks, hfiles⟩ := Fallible.bind_eq_ok_iff.mp h
  exact ⟨blocks, hblocks, (Except.ok.inj hfiles).symm⟩

theorem files_paths {options : StubOptions} {s : Service} {files : List GeneratedFile}
    (h : WebResource.files options s = .ok files) : files.map (·.path) = modulePaths s := by
  obtain ⟨blocks, -, rfl⟩ := files_eq_ok h
  rw [List.map_cons, List.map_singleton, modulePaths]

theorem serviceFiles_give (output : Path) (stubs : StubOptions) (services : List Service) :
    (serviceFiles output stubs services).Gives
      fun files => files.map (·.path) = services.flatMap modulePaths := by
  have hservice : ∀ s ∈ services, Job.Gives (do
      let files ← (WebResource.files stubs s : Except _ _)
      files.forM (ensurePackages output)
      return files) fun files => files.map (·.path) = modulePaths s := by
    intro s _
    refine gives_bind (gives_liftM fun files hfiles => ?_)
    exact gives_bind fun _ _ _ => gives_pure (files_paths hfiles)
  refine gives_bind fun w files hfiles => gives_pure ?_
  rw [List.map_flatten, gives_mapM_map _ hservice w files hfiles]
  rfl

theorem writeFiles_give (root : Path) (files : List GeneratedFile) :
    (writeFiles root files).Gives (· = (files.map (·.path)).map root.join) := by
  rw [List.map_map]
  exact gives_mapM fun f _ => gives_bind fun _ _ _ => gives_pure rfl

/-- A generation gives the paths of the files below the output, and that of the module which holds
the enumerations. -/
theorem modules_give (web : WebSettings) (output enumHolders : Path) (services : List Service)
    (scanned : EnumSet) :
    (modules web output enumHolders services scanned).Gives
      (· = webFiles output services ++ [enumHolders]) := by
  refine gives_bind fun _ _ _ => gives_bind fun w files hfiles => gives_bind fun _ _ _ =>
    gives_bind fun _ _ _ => gives_bind fun v written hwritten => gives_bind fun _ _ _ =>
      gives_pure ?_
  rw [writeFiles_give _ _ v written hwritten, List.map_append,
    serviceFiles_give _ _ _ w files hfiles, webFiles, List.map_cons, List.map_singleton]

section Distinct

variable {output : Path} {services : List Service}

/-- The directory of the modules of a service, and their stem. -/
def place (output : Path) (s : Service) : List Component × String :=
  ((output.join s.packagePath).components, s.webStem)

/-- The place of the data classes next to a resource module. -/
def definitionsPlace (p : List Component × String) : List Component × String :=
  (p.1, p.2 ++ "_def")

/-- The components of the module at a place. -/
def componentsAt (p : List Component × String) : List Component :=
  p.1 ++ [.name (p.2 ++ ".py")]

theorem componentsAt_injective : Function.Injective componentsAt := by
  rintro ⟨dir, stem⟩ ⟨dir', stem'⟩ h
  obtain ⟨rfl, hname⟩ := List.append_inj' h rfl
  simpa using hname

theorem definitionsPlace_injective : Function.Injective definitionsPlace := by
  rintro ⟨dir, stem⟩ ⟨dir', stem'⟩ h
  simpa [definitionsPlace] using h

theorem components_modulePaths (output : Path) {s : Service} (hs : s.IsNamed) :
    (modulePaths s).map (fun p => (output.join p).components) =
      [place output s, definitionsPlace (place output s)].map componentsAt := by
  obtain ⟨hstem, hpoint⟩ := hs.isFileName
  have hending : ∀ ending : String, '/' ∉ ending.toList → 2 < ending.length →
      Path.IsFileName (s.webStem ++ ending) := fun ending =>
    Path.isFileName_append ending hstem.1
  have hresource : (s.modulePath.withExtension "py").components =
      s.packagePath.components ++ [.name (s.webStem ++ ".py")] := by
    rw [s.modulePath_eq, Path.withExtension_push hstem hpoint]
    exact Path.components_push (hending ".py" (by simp) (by decide)) _
  have hdefinitions : (s.modulePath.withFileName (s.webStem ++ "_def.py")).components =
      s.packagePath.components ++ [.name (s.webStem ++ "_def.py")] := by
    have hname : s.modulePath.fileName?.isSome = true := by
      rw [s.modulePath_eq, Path.fileName?_push hstem]
      rfl
    rw [Path.components_withFileName hname (hending "_def.py" (by simp) (by decide)),
      s.modulePath_eq, Path.components_push hstem, List.dropLast_concat]
  have hjoined : s.webStem ++ "_def.py" = s.webStem ++ "_def" ++ ".py" := by
    rw [String.append_assoc]
    rfl
  rw [modulePaths, List.map_cons, List.map_singleton, Path.components_join_concat hresource,
    Path.components_join_concat hdefinitions, hjoined, List.map_cons, List.map_singleton,
    componentsAt, componentsAt, definitionsPlace, place]

def sharedPlaces (output : Path) : List (List Component × String) :=
  [(output.components, "api_reg"), (output.components, "ss_enum")]

theorem components_webFiles (hnamed : ∀ s ∈ services, s.IsNamed) :
    (webFiles output services).map Path.components =
      ((services.map (place output)).flatMap (fun p => [p, definitionsPlace p]) ++
        sharedPlaces output).map componentsAt := by
  have hservices : (services.flatMap modulePaths).map (fun p => (output.join p).components) =
      ((services.map (place output)).flatMap fun p => [p, definitionsPlace p]).map
        componentsAt := by
    rw [List.map_flatMap, List.map_flatMap, List.flatMap_map]
    exact List.flatMap_congr fun s hs => components_modulePaths output (hnamed s hs)
  have hshared : ∀ name : String, Path.IsFileName name →
      (output.join ⟨name⟩).components = output.components ++ [.name name] := fun _ hname =>
    Path.components_push hname output
  rw [webFiles, List.map_map, List.map_append, List.map_append]
  refine congrArg₂ _ hservices ?_
  have hregistry : Path.IsFileName "api_reg.py" := by simp [Path.IsFileName]
  have henums : Path.IsFileName "ss_enum.py" := by simp [Path.IsFileName]
  simp [sharedPlaces, componentsAt, hshared _ hregistry, hshared _ henums]

/-- A file that is called after data classes is none that all services share. -/
theorem definitionsPlace_notMem_shared (p : List Component × String) :
    definitionsPlace p ∉ sharedPlaces output := by
  intro hmem
  simp only [sharedPlaces, List.mem_cons, List.not_mem_nil, or_false] at hmem
  rcases hmem with heq | heq <;>
    have hlast := congrArg (fun q : List Component × String => q.2.toList.getLast?) heq <;>
    simp [definitionsPlace] at hlast

/-- The files below the output are distinct when the services have places of their own, where no
other service has its data classes, and no service is called like a file that all of them share. -/
theorem nodup_webFiles_iff (hnamed : ∀ s ∈ services, s.IsNamed) :
    ((webFiles output services).map Path.components).Nodup ↔
      (services.map (place output)).Nodup ∧
        (∀ s ∈ services, ∀ t ∈ services,
          place output t ≠ definitionsPlace (place output s)) ∧
        ∀ s ∈ services, place output s ∉ sharedPlaces output := by
  have hshared : (sharedPlaces output).Nodup := by simp [sharedPlaces]
  have hapart : ((services.map (place output)).flatMap fun p => [p, definitionsPlace p]).Disjoint
      (sharedPlaces output) ↔ ∀ s ∈ services, place output s ∉ sharedPlaces output := by
    constructor
    · intro hdisjoint s hs hplace
      refine hdisjoint (List.mem_flatMap.mpr ?_) hplace
      exact ⟨_, List.mem_map_of_mem hs, List.mem_cons_self⟩
    · intro h q hq hplace
      obtain ⟨p, hp, hq⟩ := List.mem_flatMap.mp hq
      obtain ⟨s, hs, rfl⟩ := List.mem_map.mp hp
      simp only [List.mem_cons, List.not_mem_nil, or_false] at hq
      rcases hq with rfl | rfl
      · exact h s hs hplace
      · exact definitionsPlace_notMem_shared _ hplace
  rw [components_webFiles hnamed, List.nodup_map_iff componentsAt_injective, List.nodup_append',
    nodup_with_companions_iff definitionsPlace_injective, hapart,
    and_iff_right hshared, and_assoc]
  simp only [List.forall_mem_map]

end Distinct

/-- A generation writes the two modules of each service and the two that all services share below
its output, and the module that holds the enumerations where it is told to.  Of services whose names
are identifiers, no two files below the output are the same exactly when the services have places of
their own, no service is called like the data classes of another one in the same directory, and none
in the output itself is called like a shared module. -/
theorem web_files_distinct_iff {web : WebSettings} {output enumHolders : Path}
    {services : List Service} {scanned : EnumSet} {w : Workspace} {written : List Path}
    (hrun : (modules web output enumHolders services scanned).result w = .ok written)
    (hnamed : ∀ s ∈ services, s.IsNamed) :
    written = webFiles output services ++ [enumHolders] ∧
      (((webFiles output services).map Path.components).Nodup ↔
        (services.map (place output)).Nodup ∧
          (∀ s ∈ services, ∀ t ∈ services,
            place output t ≠ definitionsPlace (place output s)) ∧
          ∀ s ∈ services, place output s ∉ sharedPlaces output) :=
  ⟨modules_give web output enumHolders services scanned w written hrun, nodup_webFiles_iff hnamed⟩

end WebRun

namespace WebFilesWitness

open Fallible Job WebRun

/-- A service without operations. -/
def declared (module name : String) : Service :=
  ⟨name, ⟨module, name⟩, [], none, none⟩

/-- One name in two packages. -/
def shops : List Service :=
  [declared "define.api.shop" "Ad", declared "define.api.bank" "Ad"]

/-- One service is called like the data classes of another one. -/
def overlapping : List Service :=
  [declared "define.api.shop" "Ad", declared "define.api.shop" "AdDef"]

def generation (services : List Service) : Job (List Path) :=
  modules Settings.standard.web ⟨"api"⟩ ⟨"enum.py"⟩ services .empty

def fresh : Workspace := { tree := .empty, programs := [], exits := [], started := [] }

theorem shops_files_distinct :
    (∀ s ∈ shops, s.IsNamed) ∧ ∃ below, (generation shops).result fresh =
        .ok (below ++ [⟨"enum.py"⟩]) ∧ (below.map Path.components).Nodup := by
  have hnamed : ∀ s ∈ shops, s.IsNamed := by
    unfold Service.IsNamed
    decide +kernel
  have hsome : ((generation shops).result fresh).toOption.isSome = true := by decide +kernel
  obtain ⟨written, hrun⟩ := exists_ok_of_isSome hsome
  obtain ⟨rfl, hdistinct⟩ := web_files_distinct_iff hrun hnamed
  exact ⟨hnamed, _, hrun, hdistinct.mpr ⟨by decide +kernel, by decide +kernel, by decide +kernel⟩⟩

/-- The resource module of one service takes the place of the data classes of another one. -/
theorem not_all_web_files_distinct :
    ¬ ∀ (web : WebSettings) (output enumHolders : Path) (services : List Service)
        (scanned : EnumSet) (w : Workspace) (below : List Path),
      (services.map fun s => (s.declaredAs.module, s.name)).Nodup → (∀ s ∈ services, s.IsNamed) →
        (modules web output enumHolders services scanned).result w =
            .ok (below ++ [enumHolders]) →
          (below.map Path.components).Nodup := by
  intro hall
  have hnamed : ∀ s ∈ overlapping, s.IsNamed := by
    unfold Service.IsNamed
    decide +kernel
  have hsome : ((generation overlapping).result fresh).toOption.isSome = true := by
    decide +kernel
  obtain ⟨written, hrun⟩ := exists_ok_of_isSome hsome
  obtain rfl := modules_give _ _ _ _ _ _ written hrun
  have hnodup := hall _ _ _ _ _ _ _ (by decide) hnamed hrun
  revert hnodup
  decide +kernel

end WebFilesWitness

end ServiceGen

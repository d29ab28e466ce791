import Mathlib.Data.List.Nodup
import ServiceGen.Proofs.Fallible
import ServiceGen.Proofs.Files.Job
import ServiceGen.Proofs.Files.Path
import ServiceGen.Run.Rpc

/-!
The files that a server is made of.  Which files are written is decided by the names of the services
alone; the main statement is `RpcRun.server_files_distinct_iff`.
-/

namespace ServiceGen

namespace RpcRun

open Job

theorem emit_gives (files : List (Path × String)) :
    (emit files).Gives (· = files.map (·.1)) := by
  refine gives_mapM fun file _ => ?_
  exact gives_bind fun _ _ _ => gives_pure rfl

def serviceFiles (l : Layout) (name : String) : List Path :=
  let stem := Naming.fileStem name
  [l.descriptors.push (stem ++ ".proto"), l.root.push (stem ++ ".py"),
    l.dataClasses.push (stem ++ ".py")]

/-- The files of a server: those of each service, the registration file and the launcher. -/
def serverFiles (target : Path) (names : List String) : List Path :=
  let l := Layout.server target
  names.flatMap (serviceFiles l) ++ [l.root.push packageFile, l.base.push "rpc_server.py"]

theorem descriptor_fileName (s : Service) :
    (Descriptor.ofService s).fileName = s.stem ++ ".proto" := rfl

theorem descriptor_gives (settings : Settings) (o : RpcOptions) (l : Layout) (s : Service) :
    (descriptor settings o l s).Gives (· = [l.descriptors.push (s.stem ++ ".proto")]) := by
  refine gives_bind fun w written hwritten => gives_bind fun _ _ _ => gives_pure ?_
  rw [emit_gives _ w written hwritten, List.map_singleton, descriptor_fileName]

theorem modules_files (stubs : StubOptions) (l : Layout) (s : Service) :
    (modules stubs l s).map (·.1) =
      [l.root.push (s.stem ++ ".py"), l.dataClasses.push (s.stem ++ ".py")] := by
  unfold modules
  split <;> simp only [List.map_cons, List.map_nil]

theorem services_give (settings : Settings) (o : RpcOptions) (stubs : StubOptions) (l : Layout)
    (found : List Service) :
    (services settings o stubs l found).Gives
      (· = (found.map (·.name)).flatMap (serviceFiles l)) := by
  have hservice : ∀ s ∈ found, Job.Gives (do
      return (← descriptor settings o l s) ++ (← emit (modules stubs l s)))
        (· = serviceFiles l s.name) := by
    refine fun s _ => gives_bind fun w d hd => gives_bind fun v m hm => gives_pure ?_
    rw [descriptor_gives settings o l s w d hd, emit_gives _ v m hm, modules_files]
    rfl
  refine gives_bind fun _ _ _ => gives_bind fun _ _ _ => gives_bind fun w written hwritten =>
    gives_pure ?_
  rw [gives_mapM hservice w written hwritten, List.flatMap_map]
  rfl

theorem server_gives (settings : Settings) (o : RpcOptions) (stubs : StubOptions) (target : Path)
    (found : List Service) :
    (server settings o stubs target found).Gives (· = serverFiles target (found.map (·.name))) := by
  refine gives_bind fun w stubFiles hstubs => gives_bind fun _ _ _ =>
    gives_bind fun v registration hregistration => gives_bind fun _ _ _ =>
      gives_bind fun u launcherFile hlauncher => gives_pure ?_
  rw [services_give settings o stubs _ found w stubFiles hstubs,
    emit_gives _ v registration hregistration, emit_gives _ u launcherFile hlauncher]
  simp [serverFiles]

/-- A run with a server writes the files of a server for the services that it discovers, and then
those of the client, if there is one. -/
theorem run_eq_ok {settings : Settings} {o : RpcOptions} {target : Path} {w : Workspace}
    {report : RpcReport} (htarget : serverTarget o = some target)
    (hrun : (run settings o).result w = .ok report) :
    ∃ root found called, (declarationRoot o).result w = .ok root ∧
      Discovery.ofDirectory ((declarationRoot o).after w).tree root settings.scan
          o.needImplementation = .ok found ∧
        report.services = found.services.map (·.name) ∧
          report.written = serverFiles target report.services ++ called ∧
            (o.client = none → called = []) := by
  rw [run, result_bind_eq_ok] at hrun
  obtain ⟨root, hroot, hrun⟩ := hrun
  obtain ⟨tree, htree, hrun⟩ := result_bind_eq_ok.mp hrun
  obtain rfl : ((declarationRoot o).after w).tree = tree := Except.ok.inj htree
  obtain ⟨found, hfound, hrun⟩ := result_bind_eq_ok.mp hrun
  rw [htarget] at hrun
  obtain ⟨served, hserved, hrun⟩ := result_bind_eq_ok.mp hrun
  have hfiles := server_gives _ _ _ _ _ _ served hserved
  cases hclient : o.client with
  | none =>
      rw [hclient] at hrun
      obtain ⟨called, hcalled, hrun⟩ := result_bind_eq_ok.mp hrun
      obtain rfl : [] = called := Except.ok.inj hcalled
      obtain rfl := Except.ok.inj hrun
      exact ⟨root, found, [], hroot, hfound, rfl, by rw [hfiles], fun _ => rfl⟩
  | some client =>
      rw [hclient] at hrun
      obtain ⟨called, -, hrun⟩ := result_bind_eq_ok.mp hrun
      obtain rfl := Except.ok.inj hrun
      exact ⟨root, found, called, hroot, hfound, rfl, by rw [hfiles], nofun⟩

section Distinct

variable {target : Path} {names : List String}

/-- The components of the files of a service, as seen from the project. -/
def serviceComponents (stem : String) : List (List Component) :=
  [[.name "rpc", .name "mid_file", .name (stem ++ ".proto")], [.name "rpc", .name (stem ++ ".py")],
    [.name "rpc", .name "impl", .name (stem ++ ".py")]]

def sharedComponents : List (List Component) :=
  [[.name "rpc", .name packageFile], [.name "rpc_server.py"]]

theorem components_serviceFiles {name : String} (hname : '/' ∉ name.toList) :
    (serviceFiles (Layout.server target) name).map Path.components =
      (serviceComponents (Naming.fileStem name)).map (target.components ++ ·) := by
  have hstem := Naming.slash_notMem_fileStem hname
  have hproto := Path.isFileName_append ".proto" hstem (by simp) (by decide)
  have hpy := Path.isFileName_append ".py" hstem (by simp) (by decide)
  have hrpc : Path.IsFileName "rpc" := by simp [Path.IsFileName]
  have hmid : Path.IsFileName "mid_file" := by simp [Path.IsFileName]
  have himpl : Path.IsFileName "impl" := by simp [Path.IsFileName]
  simp [serviceFiles, serviceComponents, Layout.server, Path.components_push, *]

theorem components_serverFiles (hnames : ∀ name ∈ names, '/' ∉ name.toList) :
    (serverFiles target names).map Path.components =
      ((names.map Naming.fileStem).flatMap serviceComponents ++ sharedComponents).map
        (target.components ++ ·) := by
  have hservices : ((names.flatMap (serviceFiles (Layout.server target))).map Path.components) =
      ((names.map Naming.fileStem).flatMap serviceComponents).map (target.components ++ ·) := by
    rw [List.map_flatMap, List.map_flatMap, List.flatMap_map]
    exact List.flatMap_congr fun name hname => components_serviceFiles (hnames name hname)
  have hrpc : Path.IsFileName "rpc" := by simp [Path.IsFileName]
  have hpackage : Path.IsFileName packageFile := by simp [Path.IsFileName, packageFile]
  have hlauncher : Path.IsFileName "rpc_server.py" := by simp [Path.IsFileName]
  rw [serverFiles, List.map_append, hservices, List.map_append]
  simp [sharedComponents, Layout.server, Path.components_push, *]

theorem nodup_serviceComponents (stem : String) : (serviceComponents stem).Nodup := by
  simp [serviceComponents]

theorem disjoint_serviceComponents_iff (a b : String) :
    (serviceComponents a).Disjoint (serviceComponents b) ↔ a ≠ b := by
  constructor
  · rintro hdisjoint rfl
    exact hdisjoint List.mem_cons_self List.mem_cons_self
  · intro hne c ha hb
    simp only [serviceComponents, List.mem_cons, List.not_mem_nil, or_false] at ha hb
    rcases ha with rfl | rfl | rfl <;> simp [hne] at hb

theorem stem_append_ne_packageFile {stem : String} (hstem : '_' ∉ stem.toList) :
    stem ++ ".py" ≠ packageFile := by
  intro heq
  have hmem : '_' ∈ (stem ++ ".py").toList := by
    rw [heq]
    decide
  simp [hstem] at hmem

theorem disjoint_sharedComponents {stem : String} (hstem : '_' ∉ stem.toList) :
    (serviceComponents stem).Disjoint sharedComponents := by
  intro c hservice hshared
  simp only [serviceComponents, sharedComponents, List.mem_cons, List.not_mem_nil, or_false]
    at hservice hshared
  rcases hservice with rfl | rfl | rfl <;>
    simp [stem_append_ne_packageFile hstem] at hshared

/-- The files of a server are distinct exactly when the stems of its services are. -/
theorem nodup_serverFiles_iff (hnames : ∀ name ∈ names, '/' ∉ name.toList) :
    ((serverFiles target names).map Path.components).Nodup ↔
      (names.map Naming.fileStem).Nodup := by
  have hshared : sharedComponents.Nodup := by simp [sharedComponents]
  -- the registration file has underscores in its name, and no stem has
  have hapart : ∀ c ∈ (names.map Naming.fileStem).flatMap serviceComponents,
      ∀ d ∈ sharedComponents, c ≠ d := by
    rintro c hservice _ hshared rfl
    obtain ⟨stem, hstem, hc⟩ := List.mem_flatMap.mp hservice
    obtain ⟨name, -, rfl⟩ := List.mem_map.mp hstem
    exact disjoint_sharedComponents (Naming.underscore_notMem_fileStem name) hc hshared
  have hdisjoint : ∀ stems : List String,
      stems.Pairwise (Function.onFun List.Disjoint serviceComponents) ↔ stems.Nodup := fun stems =>
    List.Pairwise.iff fun a b => disjoint_serviceComponents_iff a b
  rw [components_serverFiles hnames, List.nodup_map_iff (List.append_right_injective _),
    List.nodup_append, List.nodup_flatMap, hdisjoint]
  exact ⟨fun h => h.1.2, fun h => ⟨⟨fun stem _ => nodup_serviceComponents stem, h⟩, hshared,
    hapart⟩⟩

end Distinct

/-- A run with a server writes the files of a server for the services that it discovers, and then
those of the client, if there is one.  Of services whose names have no slash, the files of the
server are distinct exactly when the stems of the services are: no other two files meet. -/
theorem server_files_distinct_iff {settings : Settings} {o : RpcOptions} {target : Path}
    {w : Workspace} {report : RpcReport} (htarget : serverTarget o = some target)
    (hrun : (run settings o).result w = .ok report)
    (hnames : ∀ name ∈ report.services, '/' ∉ name.toList) :
    ∃ root found called, (declarationRoot o).result w = .ok root ∧
      Discovery.ofDirectory ((declarationRoot o).after w).tree root settings.scan
          o.needImplementation = .ok found ∧
        report.services = found.services.map (·.name) ∧
          report.written = serverFiles target report.services ++ called ∧
            (o.client = none → called = []) ∧
              (((serverFiles target report.services).map Path.components).Nodup ↔
                (report.services.map Naming.fileStem).Nodup) := by
  obtain ⟨root, found, called, hroot, hfound, hservices, hwritten, hcalled⟩ :=
    run_eq_ok htarget hrun
  exact ⟨root, found, called, hroot, hfound, hservices, hwritten, hcalled,
    nodup_serverFiles_iff hnames⟩

end RpcRun

namespace ServerFilesWitness

open Fallible Job RpcRun

/-- A project whose declarations are in one file. -/
def project (text : String) : Workspace :=
  { tree := ⟨[(["app"], .directory), (["app", "shop.rpc.json"], .file (.text text))]⟩
    programs := [], exits := [], started := [] }

def options : RpcOptions :=
  { source := "/app", project := "shop", client := none, serverCode := true
    needImplementation := false, outside := none, declarations := none
    skipVersionControl := true, skipCompiler := true }

def declarationText : String :=
  "[\"class\",\"\",\"\",\"service_base\",null,null,null,\x7b\"find\":[]\x7d]"

/-- A module that declares the service `Demo`. -/
def moduleText (name : String) : String :=
  "[\"" ++ name ++ "\",\x7b\"Demo\":" ++ declarationText ++ "\x7d]"

theorem demo_files_distinct :
    ∃ report, (run .standard options).result (project ("[[" ++ moduleText "a" ++ "]]")) =
        .ok report ∧
      report.written = serverFiles ⟨"/app"⟩ ["Demo"] ∧
        (report.written.map Path.components).Nodup := by
  have hrun : (run .standard options).result (project ("[[" ++ moduleText "a" ++ "]]")) =
      .ok ⟨["Demo"], serverFiles ⟨"/app"⟩ ["Demo"]⟩ := eq_ok_of_toOption (by decide +kernel)
  obtain ⟨-, -, -, -, -, -, -, -, hdistinct⟩ := server_files_distinct_iff rfl hrun (by simp)
  exact ⟨_, hrun, rfl, hdistinct.mpr (by simp)⟩

section Discovered

def loadingOf (w : Workspace) : Except Failure Loading :=
  Loading.ofDirectory w.tree ⟨"/app"⟩ ScanSettings.standard.suffix

def findingsIn (w : Workspace) : Findings :=
  (Walk.everywhere ((loadingOf w).toOption.getD ⟨.empty, [], []⟩).catalogue
    ScanSettings.standard.maxDepth).found

def assemblyOf (w : Workspace) : Except Failure (List (Option Service) × Degradations) :=
  ((findingsIn w).services.mapM
    (ClassDeclaration.service? false (findingsIn w).implementations)).run .none

/-- The services of a project, in the order in which they are found. -/
def servicesIn (w : Workspace) : List Service :=
  ((assemblyOf w).toOption.getD ([], .none)).1.filterMap id

/-- Services that are found in the order of their names are discovered in that order. -/
theorem discovered_of_evaluated {w : Workspace} (hloaded : (loadingOf w).toOption.isSome = true)
    (hassembled : (assemblyOf w).toOption.isSome = true)
    (hsorted : ((servicesIn w).map (·.name)).Pairwise fun a b =>
      decide (Text.lowerCase a ≤ Text.lowerCase b) = true)
    (hsound : (Service.checkAll (servicesIn w)).isEmpty = true) :
    ∃ found, Discovery.ofDirectory w.tree ⟨"/app"⟩ .standard false = .ok found ∧
      found.services = servicesIn w := by
  have hsame : sortByName Service.name (servicesIn w) = servicesIn w :=
    List.mergeSort_of_pairwise (List.pairwise_map.mp hsorted)
  have hassemble : (Service.assemble false (findingsIn w).services
      (findingsIn w).implementations).run .none =
        .ok (servicesIn w, ((assemblyOf w).toOption.getD ([], .none)).2) := by
    rw [Service.assemble, StateT.run_bind]
    refine (bind_of_eq_ok (eq_ok_of_isSome ([], .none) hassembled)).trans ?_
    exact congrArg (fun sorted => Except.ok (sorted, _)) hsame
  refine ⟨⟨findingsIn w, servicesIn w, ((assemblyOf w).toOption.getD ([], .none)).2⟩, ?_, rfl⟩
  refine (bind_of_eq_ok (eq_ok_of_isSome ⟨.empty, [], []⟩ hloaded)).trans ?_
  refine (bind_of_eq_ok hassemble).trans ?_
  exact if_pos hsound

end Discovered

/-- Two modules that declare a service of the same name. -/
def twice : Workspace :=
  project ("[[" ++ moduleText "a" ++ "," ++ moduleText "b" ++ "]]")

def loaded : Except Failure Loading :=
  Loading.ofDirectory twice.tree ⟨"/app"⟩ ScanSettings.standard.suffix

def findings : Findings :=
  (Walk.everywhere (loaded.toOption.getD ⟨.empty, [], []⟩).catalogue
    ScanSettings.standard.maxDepth).found

/-- The services of the two modules, in the order in which they are found. -/
def assembled : Except Failure (List (Option Service) × Degradations) :=
  (findings.services.mapM (ClassDeclaration.service? false findings.implementations)).run .none

def twins : List Service :=
  (assembled.toOption.getD ([], .none)).1.filterMap id

def served : Except Failure (List Path) :=
  (server .standard options ⟨"shop", WebSettings.standard.runtimePath,
    WebSettings.standard.apiPath⟩ ⟨"/app"⟩ twins).result twice

-- Sorting does not evaluate, so that the run is taken apart around it.
theorem twice_evaluated :
    loaded.toOption.isSome = true ∧ assembled.toOption.isSome = true ∧
      twins.map (·.name) = ["Demo", "Demo"] ∧ (Service.checkAll twins).isEmpty = true ∧
        served.toOption.isSome = true := by
  decide +kernel

theorem twice_discovered :
    ∃ found, Discovery.ofDirectory twice.tree ⟨"/app"⟩ .standard false = .ok found ∧
      found.services = twins := by
  obtain ⟨hloaded, hassembled, hnames, hsound, -⟩ := twice_evaluated
  have htwins : twins = servicesIn twice := rfl
  rw [htwins] at hnames hsound ⊢
  refine discovered_of_evaluated hloaded hassembled ?_ hsound
  rw [hnames]
  decide

theorem twice_run :
    ∃ report, (run .standard options).result twice = .ok report ∧
      report.services = ["Demo", "Demo"] := by
  obtain ⟨found, hfound, hservices⟩ := twice_discovered
  obtain ⟨-, -, hnames, -, hserved⟩ := twice_evaluated
  refine ⟨⟨twins.map (·.name), served.toOption.getD [] ++ []⟩, ?_, hnames⟩
  rw [run, result_bind_eq_ok]
  refine ⟨⟨"/app"⟩, rfl, ?_⟩
  rw [result_bind_eq_ok]
  refine ⟨twice.tree, rfl, ?_⟩
  rw [result_bind_eq_ok]
  refine ⟨found, hfound, ?_⟩
  rw [hservices]
  change Job.result (server _ _ _ _ twins >>= _) twice = _
  rw [result_bind_eq_ok]
  exact ⟨_, eq_ok_of_isSome [] hserved, rfl⟩

/-- Two services of the same name are given the same files. -/
theorem not_all_server_files_distinct :
    ¬ ∀ (settings : Settings) (o : RpcOptions) (target : Path) (w : Workspace)
        (report : RpcReport), serverTarget o = some target → o.client = none →
          (run settings o).result w = .ok report → report.written.Nodup := by
  intro hall
  obtain ⟨report, hrun, hservices⟩ := twice_run
  obtain ⟨-, -, called, -, -, -, hwritten, hcalled⟩ := run_eq_ok rfl hrun
  have hnodup := hall .standard options ⟨"/app"⟩ twice report rfl rfl hrun
  rw [hwritten, hcalled rfl, hservices] at hnodup
  revert hnodup
  decide +kernel

end ServerFilesWitness

end ServiceGen

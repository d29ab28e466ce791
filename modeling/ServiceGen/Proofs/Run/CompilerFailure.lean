import ServiceGen.Proofs.Run.RpcEffects

/-!
What a generation in the source project leaves behind when it is cut short.  Until its services are
known it touches nothing, and when the protocol compiler fails on one of them, neither the
registration file nor the launcher nor any file of a later service has been written.
-/

namespace ServiceGen

open Job

namespace Job

variable {α β : Type} {f : α → Job β} {before : List α} {a : α} {w : Workspace}

/-- A sequence of jobs ends with the first one that fails. -/
theorem mapM_of_error (later : List α) {bs : List β} {e : Failure}
    (hbefore : (before.mapM f).result w = .ok bs)
    (ha : (f a).result ((before.mapM f).after w) = .error e) :
    ((before ++ a :: later).mapM f).result w = .error e ∧
      ((before ++ a :: later).mapM f).after w = (f a).after ((before.mapM f).after w) := by
  rw [List.mapM_append, result_bind_of_ok hbefore, after_bind_of_ok hbefore, List.mapM_cons,
    bind_assoc]
  exact ⟨result_bind_of_error ha, after_bind_of_error ha⟩

end Job

namespace Compiler

def start (compiler : CompilerSettings) (l : Layout) (descriptor : Path) :
    Job (Except FileError Nat) :=
  match compiler.words with
  | [] => throw .compilerUnset
  | program :: first => Job.start none program (first ++ arguments l descriptor)

/-- When the compiler exits with another status than zero, that is the failure. -/
theorem compile_of_status {compiler : CompilerSettings} {enabled : Bool} {l : Layout}
    {descriptor : Path} {w : Workspace} {status : Nat} (stem : String)
    (henabled : (enabled && compiler.enabled) = true)
    (hstart : (start compiler l descriptor).result w = .ok (.ok status)) (hstatus : status ≠ 0) :
    (compile compiler enabled l descriptor stem).result w =
        .error (.compilerFailed descriptor status) ∧
      (compile compiler enabled l descriptor stem).after w =
        (start compiler l descriptor).after w := by
  unfold start at hstart ⊢
  unfold compile
  rw [if_pos henabled]
  cases hwords : compiler.words with
  | nil =>
      rw [hwords] at hstart
      cases hstart
  | cons program first =>
      simp only [hwords] at hstart ⊢
      rw [result_bind_of_ok hstart, after_bind_of_ok hstart]
      have hne : (status != 0) = true := by simpa using hstatus
      simp only [hne, if_true]
      exact ⟨rfl, rfl⟩

end Compiler

namespace RpcRun

variable {settings : Settings} {o : RpcOptions} {stubs : StubOptions} {l : Layout} {s : Service}
  {before : List Service} {w : Workspace} {status : Nat}

/-- What a generation does until the compiler exits for a service: it generates the services before
that one, and writes the descriptor. -/
def untilExit (settings : Settings) (o : RpcOptions) (stubs : StubOptions) (l : Layout)
    (before : List Service) (s : Service) : Job (Except FileError Nat) := do
  l.ensure
  Git.ensureRuntime (!o.skipVersionControl) l settings.runtime
  let _ ← before.mapM (service settings o stubs l)
  let _ ← emit [(descriptorFile l s, (Descriptor.ofService s).render)]
  Compiler.start settings.compiler l (descriptorFile l s)

/-- The descriptor is all that is written of a service for which the compiler fails. -/
theorem service_of_status (stubs : StubOptions) {written : List Path}
    (henabled : (!o.skipCompiler && settings.compiler.enabled) = true)
    (hemit : (emit [(descriptorFile l s, (Descriptor.ofService s).render)]).result w = .ok written)
    (hexit : (Compiler.start settings.compiler l (descriptorFile l s)).result
      ((emit [(descriptorFile l s, (Descriptor.ofService s).render)]).after w) = .ok (.ok status))
    (hstatus : status ≠ 0) :
    (service settings o stubs l s).result w =
        .error (.compilerFailed (descriptorFile l s) status) ∧
      (service settings o stubs l s).after w =
        (Compiler.start settings.compiler l (descriptorFile l s)).after
          ((emit [(descriptorFile l s, (Descriptor.ofService s).render)]).after w) := by
  obtain ⟨hresult, hafter⟩ := Compiler.compile_of_status s.stem henabled hexit hstatus
  have hdescriptor : (descriptor settings o l s).result w =
        .error (.compilerFailed (descriptorFile l s) status) ∧
      (descriptor settings o l s).after w =
        (Compiler.start settings.compiler l (descriptorFile l s)).after
          ((emit [(descriptorFile l s, (Descriptor.ofService s).render)]).after w) := by
    rw [descriptor_eq, result_bind_of_ok hemit, after_bind_of_ok hemit,
      after_bind_of_error hresult, hafter]
    exact ⟨result_bind_of_error hresult, rfl⟩
  refine ⟨result_bind_of_error hdescriptor.1, ?_⟩
  exact (after_bind_of_error hdescriptor.1).trans hdescriptor.2

theorem services_of_status (later : List Service)
    (henabled : (!o.skipCompiler && settings.compiler.enabled) = true)
    (hexit : (untilExit settings o stubs l before s).result w = .ok (.ok status))
    (hstatus : status ≠ 0) :
    (services settings o stubs l (before ++ s :: later)).result w =
        .error (.compilerFailed (descriptorFile l s) status) ∧
      (services settings o stubs l (before ++ s :: later)).after w =
        (untilExit settings o stubs l before s).after w := by
  unfold untilExit at hexit ⊢
  obtain ⟨⟨⟩, hensure, hexit⟩ := result_bind_eq_ok.mp hexit
  obtain ⟨⟨⟩, hruntime, hexit⟩ := result_bind_eq_ok.mp hexit
  obtain ⟨generated, hbefore, hexit⟩ := result_bind_eq_ok.mp hexit
  obtain ⟨written, hemit, hexit⟩ := result_bind_eq_ok.mp hexit
  obtain ⟨hresult, hafter⟩ := service_of_status stubs henabled hemit hexit hstatus
  obtain ⟨hresult, hmapM⟩ := mapM_of_error later hbefore hresult
  rw [services_eq, result_bind_of_ok hensure, after_bind_of_ok hensure, result_bind_of_ok hruntime,
    after_bind_of_ok hruntime, after_bind_of_error hresult, hmapM, hafter,
    after_bind_of_ok hensure, after_bind_of_ok hruntime, after_bind_of_ok hbefore,
    after_bind_of_ok hemit]
  exact ⟨result_bind_of_error hresult, rfl⟩

/-- Only files of the services up to the one for which the compiler exits are written. -/
theorem writes_untilExit (settings : Settings) (o : RpcOptions) (stubs : StubOptions) (l : Layout)
    (before : List Service) (s : Service) :
    (untilExit settings o stubs l before s).Writes l.IsPackageFile
      (IsServiceFile l ((before ++ [s]).map (·.name))) := by
  have hfile : ∀ x ∈ before ++ [s], ∀ file, IsServiceFile l [x.name] file →
      IsServiceFile l ((before ++ [s]).map (·.name)) file := by
    rintro x hx file ⟨name, hname, hfile⟩
    rw [List.mem_singleton.mp hname] at hfile
    exact ⟨x.name, List.mem_map_of_mem hx, hfile⟩
  have hemit : (emit [(descriptorFile l s, (Descriptor.ofService s).render)]).Writes
      l.IsPackageFile (IsServiceFile l ((before ++ [s]).map (·.name))) := by
    refine writes_emit fun file hmem => ?_
    have hpath : file.1 = descriptorFile l s := by rw [List.mem_singleton.mp hmem]
    rw [hpath]
    exact hfile s (by simp) _ ⟨s.name, List.mem_cons_self, .inl (descriptorFile_mem l s)⟩
  refine writes_bind (writes_ensure fun _ => id) fun _ =>
    writes_bind (Git.writes_ensureRuntime _ _ _) fun _ =>
      writes_bind (writes_mapM fun x hx => writes_service (hfile x (by simp [hx]))) fun _ =>
        writes_bind hemit fun _ => ?_
  unfold Compiler.start
  split
  · exact .of_tree fun _ => rfl
  · exact .of_tree fun v => tree_after_start _ _ _ v

/-- The compiler exits with another status than zero for a service, after it has succeeded for those
before that one. -/
structure CompilerFails (settings : Settings) (o : RpcOptions) (before : List Service) (s : Service)
    (w : Workspace) (status : Nat) : Prop where
  enabled : (!o.skipCompiler && settings.compiler.enabled) = true
  exit : (untilExit settings o (stubOptions settings o) (Layout.server ⟨o.source⟩) before s).result
    w = .ok (.ok status)
  failed : status ≠ 0

theorem generate_of_compilerFails (later : List Service) (hplace : o.outside = none)
    (hserver : o.serverCode = true)
    (hfails : CompilerFails settings o before s w status) :
    (generate settings o (before ++ s :: later)).result w =
        .error (.compilerFailed (descriptorFile (.server ⟨o.source⟩) s) status) ∧
      (generate settings o (before ++ s :: later)).after w =
        (untilExit settings o (stubOptions settings o) (.server ⟨o.source⟩) before s).after w := by
  obtain ⟨hresult, hafter⟩ :=
    services_of_status later hfails.enabled hfails.exit hfails.failed
  have hserved : serverTarget o = some ⟨o.source⟩ := by
    rw [serverTarget, hplace, hserver]
    rfl
  have hserver : (server settings o (stubOptions settings o) ⟨o.source⟩
        (before ++ s :: later)).result w =
          .error (.compilerFailed (descriptorFile (.server ⟨o.source⟩) s) status) ∧
      (server settings o (stubOptions settings o) ⟨o.source⟩ (before ++ s :: later)).after w =
        (untilExit settings o (stubOptions settings o) (.server ⟨o.source⟩) before s).after w :=
    ⟨result_bind_of_error hresult, (after_bind_of_error hresult).trans hafter⟩
  rw [generate, serve, hserved]
  exact ⟨result_bind_of_error hserver.1, (after_bind_of_error hserver.1).trans hserver.2⟩

section Kept

variable {target file : Path} {names : List String} {created : List (List String)}
  {written : List (List String × Content)} {t t' : FileTree} {place : List String}

/-- As long as only files of services are written, the registration file and the launcher stay. -/
theorem shared_kept (htraces : FileTree.Traces (Layout.server target).IsPackageFile
      (IsServiceFile (.server target) names) created written t t')
    (hfile : file ∈ [(Layout.server target).root.push packageFile,
      (Layout.server target).base.push "rpc_server.py"])
    (hplace : t'.resolve file = .ok place) : t'.file? place = t.file? place := by
  refine htraces.file?_eq fun p hp hresolve => ?_
  simp only [List.mem_cons, List.not_mem_nil, or_false] at hfile
  rcases hp with hpackage | hservice
  · rcases hfile with hfile | hfile
    · exact packageFile_ne_registration hpackage hresolve (hfile ▸ hplace)
    · obtain ⟨dir, -, hpath⟩ := hpackage
      exact FileTree.resolve_push_ne isFileName_packageFile (by simp [Path.IsFileName])
        (by decide) (hpath ▸ hresolve) _ (hfile ▸ hplace)
  · rcases hfile with hfile | hfile
    · exact isServiceFile_ne_shared hservice hresolve (.inl rfl) (hfile ▸ hplace)
    · exact isServiceFile_ne_shared hservice hresolve (.inr rfl) (hfile ▸ hplace)

/-- The files of a service stay when those of services with other stems are written. -/
theorem other_kept {other : String} (htraces : FileTree.Traces (Layout.server target).IsPackageFile
      (IsServiceFile (.server target) names) created written t t')
    (hnames : ∀ name ∈ names, '/' ∉ name.toList ∧ Naming.fileStem name ≠ Naming.fileStem other)
    (hother : '/' ∉ other.toList) (hfile : IsServiceFile (.server target) [other] file)
    (hplace : t'.resolve file = .ok place) : t'.file? place = t.file? place := by
  refine htraces.file?_eq fun p hp hresolve => ?_
  rcases hp with ⟨dir, hdir, hpath⟩ | hservice
  · exact isServiceFile_ne_shared hfile hplace (.inl rfl) (hpath ▸ hresolve)
  · exact isServiceFile_ne_of_stems hservice hresolve hnames hother hfile hplace

end Kept

/-- A generation in the source project whose discovery fails does nothing.  When the protocol
compiler fails on a service, that is what the user is told, all paths that led somewhere lead there
still, and neither the registration file nor the launcher has been written; of services that have
different stems, and no slashes in their names, the later ones have no file written either. -/
theorem cut_short_run_writes_no_later_file (settings : Settings) (o : RpcOptions) (w : Workspace)
    (hplace : o.outside = none) :
    (∀ e, Discovery.ofDirectory w.tree (declarationPath o) settings.scan o.needImplementation =
        .error e →
      (run settings o).result w = .error e ∧ (run settings o).after w = w) ∧
    (∀ d before s later status,
      Discovery.ofDirectory w.tree (declarationPath o) settings.scan o.needImplementation = .ok d →
      o.serverCode = true → d.services = before ++ s :: later →
      CompilerFails settings o before s w status →
        let l := Layout.server ⟨o.source⟩
        let left := ((run settings o).after w).tree
        (run settings o).result w = .error (.compilerFailed (descriptorFile l s) status) ∧
        (∀ file place, w.tree.resolve file = .ok place → left.resolve file = .ok place) ∧
        (∀ file ∈ [l.root.push packageFile, l.base.push "rpc_server.py"], ∀ place,
          left.resolve file = .ok place → left.file? place = w.tree.file? place) ∧
        ((d.services.map Service.stem).Nodup → (∀ x ∈ d.services, '/' ∉ x.name.toList) →
          ∀ x ∈ later, ∀ file, IsServiceFile l [x.name] file → ∀ place,
            left.resolve file = .ok place → left.file? place = w.tree.file? place)) := by
  refine ⟨fun e hfailed => run_of_undiscovered hplace hfailed, ?_⟩
  intro d before s later status hfound hserver hservices hfails l left
  obtain ⟨hrun, hleft⟩ := run_of_discovered settings hplace hfound
  obtain ⟨hresult, hafter⟩ := generate_of_compilerFails later hplace hserver hfails
  rw [hservices] at hrun hleft
  obtain ⟨created, written, htraces⟩ :=
    writes_untilExit settings o (stubOptions settings o) l before s w
  have htree :
      ((untilExit settings o (stubOptions settings o) l before s).after w).tree = left := by
    rw [← hafter, ← hleft]
  rw [htree] at htraces
  refine ⟨hrun.trans hresult, fun _ _ hplaced => htraces.changes.grows.resolve hplaced,
    fun _ hfile _ hplaced => shared_kept htraces hfile hplaced, ?_⟩
  intro hstems hslashes x hx file hservice place hplaced
  refine other_kept htraces (fun name hname => ?_) (hslashes x (by simp [hservices, hx]))
    hservice hplaced
  obtain ⟨y, hy, rfl⟩ := List.mem_map.mp hname
  rw [hservices, ← List.singleton_append, ← List.append_assoc] at hstems hslashes
  rw [List.map_append, List.nodup_append] at hstems
  exact ⟨hslashes y (List.mem_append_left _ hy),
    hstems.2.2 _ (List.mem_map_of_mem hy) _ (List.mem_map_of_mem hx)⟩

end RpcRun

namespace CompilerFailureWitness

open Fallible RpcRun ServerFilesWitness

def classText (name : String) : String :=
  "[\"class\",\"" ++ name ++ "\",\"\",\"service_base\",null,null,null,\x7b\"find\":[]\x7d]"

/-- A project with two services, and a compiler that fails at once. -/
def pair (first second : String) : Workspace :=
  { project ("[[[\"a\",\x7b\"A\":" ++ classText first ++ ",\"B\":" ++ classText second ++ "\x7d]]]")
    with programs := ["python"], exits := [1] }

def compiling : RpcOptions := { options with skipCompiler := false }

/-- What is done until the compiler exits for a service that comes first. -/
def firstExit (s : Service) : Job (Except FileError Nat) :=
  untilExit .standard compiling (stubOptions .standard compiling) (.server ⟨compiling.source⟩) [] s

/-- The services of a project are found, and for whichever comes first the compiler fails. -/
def Evaluated (first second : String) : Bool :=
  let w := pair first second
  (loadingOf w).toOption.isSome && (assemblyOf w).toOption.isSome &&
    (servicesIn w).map (·.name) == [first, second] && (Service.checkAll (servicesIn w)).isEmpty &&
      (servicesIn w).all fun s => match (firstExit s).result w with
        | .ok (.ok 1) => true
        | _ => false

theorem pair_fails (first second : String) (h : Evaluated first second = true)
    (hsorted : Text.lowerCase first ≤ Text.lowerCase second) :
    ∃ d s later, Discovery.ofDirectory (pair first second).tree ⟨"/app"⟩ .standard false = .ok d ∧
      d.services = [s, later] ∧ s ∈ servicesIn (pair first second) ∧ s.name = first ∧
        later.name = second ∧ CompilerFails .standard compiling [] s (pair first second) 1 := by
  simp only [Evaluated, Bool.and_eq_true, beq_iff_eq, List.all_eq_true] at h
  obtain ⟨⟨⟨⟨hloaded, hassembled⟩, hnames⟩, hsound⟩, hexits⟩ := h
  obtain ⟨d, hfound, hservices⟩ := discovered_of_evaluated hloaded hassembled
    (by simpa [hnames] using hsorted) hsound
  obtain ⟨s, rest, hlist, hs, hrest⟩ := List.map_eq_cons_iff.mp hnames
  obtain ⟨later, none, hrest', hlater, hnone⟩ := List.map_eq_cons_iff.mp hrest
  obtain rfl := List.map_eq_nil_iff.mp hnone
  rw [hrest'] at hlist
  have hmem : s ∈ servicesIn (pair first second) := by simp [hlist]
  refine ⟨d, s, later, hfound, hservices.trans hlist, hmem, hs, hlater, rfl, ?_, by decide⟩
  have hexit := hexits s hmem
  split at hexit
  · rename_i hstatus
    exact hstatus
  · cases hexit

theorem bank_shop_cut_short :
    ∃ d s later, Discovery.ofDirectory (pair "Bank" "Shop").tree ⟨"/app"⟩ .standard false = .ok d ∧
      d.services = [s, later] ∧ later.name = "Shop" ∧
        (run .standard compiling).result (pair "Bank" "Shop") =
          .error (.compilerFailed (descriptorFile (.server ⟨"/app"⟩) s) 1) ∧
        (∀ file place, (pair "Bank" "Shop").tree.resolve file = .ok place →
          ((run .standard compiling).after (pair "Bank" "Shop")).tree.resolve file = .ok place) ∧
        ∀ file, IsServiceFile (.server ⟨"/app"⟩) [later.name] file → ∀ place,
          ((run .standard compiling).after (pair "Bank" "Shop")).tree.resolve file = .ok place →
            ((run .standard compiling).after (pair "Bank" "Shop")).tree.file? place =
              (pair "Bank" "Shop").tree.file? place := by
  obtain ⟨d, s, later, hfound, hservices, -, hs, hlater, hfails⟩ :=
    pair_fails "Bank" "Shop" (by decide +kernel) (by decide +kernel)
  obtain ⟨hresult, hresolve, -, hkept⟩ := (cut_short_run_writes_no_later_file .standard compiling
    (pair "Bank" "Shop") rfl).2 d [] s [later] 1 hfound rfl hservices hfails
  have hstems : (d.services.map Service.stem) = ["Bank", "Shop"].map Naming.fileStem := by
    rw [hservices, ← hs, ← hlater]
    rfl
  have hdistinct : (["Bank", "Shop"].map Naming.fileStem).Nodup := by decide +kernel
  have hslashes : ∀ x ∈ d.services, '/' ∉ x.name.toList := by
    simp [hservices, hs, hlater]
  exact ⟨d, s, later, hfound, hservices, hlater, hresult, hresolve,
    hkept (hstems ▸ hdistinct) hslashes later List.mem_cons_self⟩

def xFile : Path := (Layout.server ⟨"/app"⟩).descriptors.push (Naming.fileStem "x" ++ ".proto")

def xPlace : List String := ["app", "rpc", "mid_file", "x.proto"]

/-- Generating the service `./x` up to the compiler writes the file of the other service. -/
theorem x_written : Evaluated "./x" "x" = true ∧
    ∀ s ∈ servicesIn (pair "./x" "x"), s.name = "./x" →
      (((firstExit s).after (pair "./x" "x")).tree.resolve xFile).toOption = some xPlace ∧
        (((firstExit s).after (pair "./x" "x")).tree.file? xPlace).isSome = true := by
  decide +kernel

/-- A slash in a name can lead to the file of another service. -/
theorem not_all_later_files_unwritten :
    ¬ ∀ (settings : Settings) (o : RpcOptions) (w : Workspace) (d : Discovery)
        (before : List Service) (s : Service) (later : List Service) (status : Nat),
      o.outside = none →
      Discovery.ofDirectory w.tree (declarationPath o) settings.scan o.needImplementation = .ok d →
      o.serverCode = true → d.services = before ++ s :: later →
      CompilerFails settings o before s w status → (d.services.map Service.stem).Nodup →
        ∀ x ∈ later, ∀ file ∈ serviceFiles (.server ⟨o.source⟩) x.name, ∀ place,
          ((run settings o).after w).tree.resolve file = .ok place →
            ((run settings o).after w).tree.file? place = w.tree.file? place := by
  intro hall
  obtain ⟨d, s, later, hfound, hservices, hmem, hs, hlater, hfails⟩ :=
    pair_fails "./x" "x" x_written.1 (by decide +kernel)
  obtain ⟨hresolve, hwritten⟩ := x_written.2 s hmem hs
  have hleft : (run .standard compiling).after (pair "./x" "x") =
      (firstExit s).after (pair "./x" "x") := by
    obtain ⟨-, hrun⟩ := run_of_discovered (o := compiling) .standard rfl hfound
    rw [hrun, hservices]
    exact (generate_of_compilerFails [later] rfl rfl hfails).2
  have hstems : d.services.map Service.stem = ["./x", "x"].map Naming.fileStem := by
    rw [hservices, ← hs, ← hlater]
    rfl
  have hdistinct : (["./x", "x"].map Naming.fileStem).Nodup := by decide +kernel
  have hfile : xFile ∈ serviceFiles (.server ⟨"/app"⟩) later.name := by
    rw [hlater]
    exact List.mem_cons_self
  have hkept := hall .standard compiling (pair "./x" "x") d [] s [later] 1 rfl hfound rfl hservices
    hfails (hstems ▸ hdistinct) later List.mem_cons_self xFile hfile xPlace
  rw [hleft] at hkept
  rw [hkept (eq_ok_of_toOption hresolve)] at hwritten
  revert hwritten
  decide +kernel

end CompilerFailureWitness

end ServiceGen

import ServiceGen.Proofs.Files.Effects
import ServiceGen.Proofs.Run.ServerFiles

/-!
Which files the parts of a generation of servers and clients create and write.  Git and the protocol
compiler are other programs: what is said here is what the generation itself does to the files.
-/

namespace ServiceGen

open Job

section Writes

variable {mayCreate mayWrite : Path → Prop}

namespace Git

theorem writes_run (dir : Path) (arguments : List String) :
    (run dir arguments).Writes mayCreate mayWrite := by
  refine writes_bind (.of_tree fun w => tree_after_start _ _ _ w) fun status => ?_
  split
  · exact writes_pure _
  · exact .of_tree fun _ => rfl
  · exact .of_tree fun _ => rfl

theorem writes_discard {α : Type} {x : Job α} (hx : x.Writes mayCreate mayWrite) :
    (discard x : Job PUnit).Writes mayCreate mayWrite := by
  rw [discard_eq]
  exact writes_bind hx fun _ => writes_pure ()

theorem writes_quietly {α : Type} {x : Job α} (hx : x.Writes mayCreate mayWrite) (otherwise : α) :
    (quietly x otherwise).Writes mayCreate mayWrite :=
  writes_tryCatch hx fun _ => writes_pure otherwise

theorem writes_tree : Job.tree.Writes mayCreate mayWrite :=
  .of_tree fun _ => rfl

theorem writes_updateSubmodules (enabled recursive : Bool) (dir : Path) (name : Option String) :
    (updateSubmodules enabled dir recursive name).Writes mayCreate mayWrite := by
  unfold updateSubmodules
  split
  · exact writes_discard (writes_run _ _)
  · exact writes_pure ()

theorem writes_addRuntime (l : Layout) (source : RuntimeSource) :
    (addRuntime l source).Writes mayCreate mayWrite := by
  have hquiet : ∀ dir arguments,
      (discard (quietly (run dir arguments) false) : Job PUnit).Writes mayCreate mayWrite :=
    fun dir arguments => writes_discard (writes_quietly (writes_run dir arguments) false)
  unfold addRuntime
  split
  · exact writes_pure ()
  · refine writes_bind (hquiet _ _) fun _ => writes_bind (hquiet _ _) fun _ =>
      writes_bind (writes_quietly (writes_run _ _) false) fun added => ?_
    split
    · exact hquiet _ _
    · exact writes_pure ()

theorem writes_ensureRuntime (enabled : Bool) (l : Layout) (source : RuntimeSource) :
    (ensureRuntime enabled l source).Writes mayCreate mayWrite := by
  unfold ensureRuntime
  split
  · refine writes_bind writes_tree fun t => ?_
    split
    · exact writes_updateSubmodules _ _ _ _
    · exact writes_bind (writes_addRuntime l source) fun _ => writes_updateSubmodules _ _ _ _
  · exact writes_pure ()

end Git

end Writes

namespace Layout

/-- The directories that a layout makes packages. -/
def packages (l : Layout) : List Path :=
  (if l.kind = .client then [l.root] else []) ++ [l.descriptors, l.encoded, l.dataClasses]

/-- The file makes one of the directories of the layout a package. -/
def IsPackageFile (l : Layout) (file : Path) : Prop :=
  ∃ dir ∈ l.packages, file = dir.push packageFile

theorem ensure_eq (l : Layout) : l.ensure = l.packages.forM ensurePackage := by
  have hlast : ensurePackage l.dataClasses = (ensurePackage l.dataClasses >>= fun _ => pure ()) :=
    (bind_pure _).symm
  unfold ensure packages
  by_cases hkind : l.kind = .client
  · simp only [hkind, if_true]
    rw [hlast]
    rfl
  · simp only [hkind, if_false]
    rw [hlast]
    rfl

end Layout

namespace RpcRun

variable {mayCreate mayWrite : Path → Prop} {settings : Settings} {o : RpcOptions}
  {stubs : StubOptions} {l : Layout} {s : Service} {found : List Service}

/-- The module with the stubs of a service, which the protocol compiler writes. -/
def stubModule (l : Layout) (name : String) : Path :=
  l.encoded.push (Naming.fileStem name ++ "_pb2_grpc.py")

/-- The file belongs to a service of one of the names. -/
def IsServiceFile (l : Layout) (names : List String) (file : Path) : Prop :=
  ∃ name ∈ names, file ∈ serviceFiles l name ∨ file = stubModule l name

theorem writes_emit {files : List (Path × String)} (h : ∀ file ∈ files, mayWrite file.1) :
    (emit files).Writes mayCreate mayWrite :=
  writes_mapM fun file hfile =>
    writes_bind (writes_writeFile (h file hfile) file.2) fun _ => writes_pure file.1

theorem repeats_emit {files : List (Path × String)} (h : ∀ file ∈ files, mayWrite file.1) :
    (emit files).Repeats mayCreate mayWrite :=
  repeats_mapM fun file hfile =>
    repeats_bind (repeats_writeFile (h file hfile) file.2) fun _ => repeats_pure file.1

theorem writes_ensure (h : ∀ file, l.IsPackageFile file → mayCreate file) :
    l.ensure.Writes mayCreate mayWrite := by
  rw [Layout.ensure_eq]
  exact writes_forM fun dir hdir => writes_ensurePackage (h _ ⟨dir, hdir, rfl⟩)

theorem repeats_ensure (h : ∀ file, l.IsPackageFile file → mayCreate file) :
    l.ensure.Repeats mayCreate mayWrite := by
  rw [Layout.ensure_eq]
  exact repeats_forM fun dir hdir => repeats_ensurePackage (h _ ⟨dir, hdir, rfl⟩)

theorem writes_compile (compiler : CompilerSettings) (enabled : Bool) (descriptor : Path)
    (stem : String) (h : mayWrite (l.encoded.push (stem ++ "_pb2_grpc.py"))) :
    (Compiler.compile compiler enabled l descriptor stem).Writes mayCreate mayWrite := by
  have hrelative : (Compiler.relativizeStubModule l.encoded stem).Writes mayCreate mayWrite := by
    refine writes_bind (.of_tree fun w => congrArg _ (after_readExisting _ w)) fun text => ?_
    split
    · exact writes_bind (writes_writeFile h _) fun _ => writes_pure true
    · exact writes_pure false
  unfold Compiler.compile
  split
  · split
    · exact .of_tree fun _ => rfl
    · refine writes_bind (.of_tree fun w => tree_after_start _ _ _ w) fun status => ?_
      split
      · exact .of_tree fun _ => rfl
      · exact .of_tree fun _ => rfl
      · split
        · exact .of_tree fun _ => rfl
        · exact Git.writes_discard hrelative
  · exact writes_pure ()

def service (settings : Settings) (o : RpcOptions) (stubs : StubOptions) (l : Layout)
    (s : Service) : Job (List Path) := do
  return (← descriptor settings o l s) ++ (← emit (modules stubs l s))

theorem services_eq (settings : Settings) (o : RpcOptions) (stubs : StubOptions) (l : Layout)
    (found : List Service) :
    services settings o stubs l found = (do
      l.ensure
      Git.ensureRuntime (!o.skipVersionControl) l settings.runtime
      let written ← found.mapM (service settings o stubs l)
      return written.flatten) := rfl

def descriptorFile (l : Layout) (s : Service) : Path :=
  l.descriptors.push (Descriptor.ofService s).fileName

theorem descriptor_eq (settings : Settings) (o : RpcOptions) (l : Layout) (s : Service) :
    descriptor settings o l s = (do
      let written ← emit [(descriptorFile l s, (Descriptor.ofService s).render)]
      Compiler.compile settings.compiler (!o.skipCompiler) l (descriptorFile l s) s.stem
      return written) := rfl

theorem descriptorFile_mem (l : Layout) (s : Service) :
    descriptorFile l s ∈ serviceFiles l s.name := List.mem_cons_self

theorem modules_mem (stubs : StubOptions) {file : Path × String}
    (hfile : file ∈ modules stubs l s) : file.1 ∈ serviceFiles l s.name := by
  have hfiles : file.1 ∈ (modules stubs l s).map (·.1) := List.mem_map_of_mem hfile
  rw [modules_files] at hfiles
  exact List.mem_cons_of_mem _ hfiles

theorem writes_descriptor (h : ∀ file, IsServiceFile l [s.name] file → mayWrite file) :
    (descriptor settings o l s).Writes mayCreate mayWrite := by
  have hstub : mayWrite (l.encoded.push (s.stem ++ "_pb2_grpc.py")) :=
    h (stubModule l s.name) ⟨s.name, List.mem_cons_self, .inr rfl⟩
  have hemit : (emit [(descriptorFile l s, (Descriptor.ofService s).render)]).Writes
      mayCreate mayWrite := by
    refine writes_emit fun file hmem => ?_
    have hfile : file.1 = descriptorFile l s := by rw [List.mem_singleton.mp hmem]
    rw [hfile]
    exact h (descriptorFile l s) ⟨s.name, List.mem_cons_self, .inl (descriptorFile_mem l s)⟩
  rw [descriptor_eq]
  exact writes_bind hemit fun written =>
    writes_bind (writes_compile _ _ _ _ hstub) fun _ => writes_pure written

theorem writes_service (h : ∀ file, IsServiceFile l [s.name] file → mayWrite file) :
    (service settings o stubs l s).Writes mayCreate mayWrite :=
  writes_bind (writes_descriptor h) fun _ => writes_bind (writes_emit fun _ hmem =>
    h _ ⟨s.name, List.mem_cons_self, .inl (modules_mem stubs hmem)⟩) fun _ => writes_pure _

section Run

/-- The directory of the declarations of a generation in the source project. -/
def declarationPath (o : RpcOptions) : Path :=
  o.declarations.getD ⟨o.source⟩

/-- What the generated modules refer to. -/
def stubOptions (settings : Settings) (o : RpcOptions) : StubOptions :=
  { fromProject := o.project, runtimePath := settings.web.runtimePath,
    apiPath := settings.web.apiPath }

def serve (settings : Settings) (o : RpcOptions) (found : List Service) : Job (List Path) :=
  match serverTarget o with
  | some target => server settings o (stubOptions settings o) target found
  | none => pure []

/-- Generates a client, if one is wanted. -/
def call (settings : Settings) (o : RpcOptions) (found : List Service) : Job (List Path) :=
  match o.client with
  | some client => services settings o (stubOptions settings o) (.client client) found
  | none => pure []

/-- Generates what the options ask for, once the services are known. -/
def generate (settings : Settings) (o : RpcOptions) (found : List Service) : Job RpcReport := do
  let served ← serve settings o found
  let called ← call settings o found
  return { services := found.map (·.name), written := served ++ called }

/-- In the source project, the services are discovered in the files as they are. -/
theorem run_eq (hplace : o.outside = none) (settings : Settings) :
    run settings o = (do
      let t ← Job.tree
      let d ← (Discovery.ofDirectory t (declarationPath o) settings.scan o.needImplementation :
        Except _ _)
      generate settings o d.services) := by
  have hroot : declarationRoot o = pure (declarationPath o) := by
    rw [declarationRoot, hplace]
    rfl
  rw [run, hroot, pure_bind]
  unfold generate serve call
  cases serverTarget o <;> cases o.client <;> rfl

variable {w : Workspace}

theorem run_of_discovered (settings : Settings) (hplace : o.outside = none) {d : Discovery}
    (hfound : Discovery.ofDirectory w.tree (declarationPath o) settings.scan o.needImplementation =
      .ok d) :
    (run settings o).result w = (generate settings o d.services).result w ∧
      (run settings o).after w = (generate settings o d.services).after w := by
  rw [run_eq hplace, result_tree_bind, after_tree_bind, hfound]
  exact ⟨rfl, rfl⟩

theorem run_of_undiscovered (hplace : o.outside = none) {e : Failure}
    (hfailed : Discovery.ofDirectory w.tree (declarationPath o) settings.scan
      o.needImplementation = .error e) :
    (run settings o).result w = .error e ∧ (run settings o).after w = w := by
  rw [run_eq hplace, result_tree_bind, after_tree_bind, hfailed]
  exact ⟨rfl, rfl⟩

end Run

section Names

variable {t : FileTree} {place : List String} {file target : Path} {names : List String}

/-- What the names of the files of a service end in. -/
def endings : List String := [".proto", ".py", "_pb2_grpc.py"]

theorem exists_ending_of_isServiceFile (h : IsServiceFile l names file) :
    ∃ name ∈ names, ∃ dir : Path, ∃ ending ∈ endings,
      file = dir.push (Naming.fileStem name ++ ending) := by
  obtain ⟨name, hname, hfile⟩ := h
  refine ⟨name, hname, ?_⟩
  simp only [serviceFiles, stubModule, List.mem_cons, List.not_mem_nil, or_false] at hfile
  rcases hfile with (hfile | hfile | hfile) | hfile
  · exact ⟨l.descriptors, ".proto", by simp [endings], hfile⟩
  · exact ⟨l.root, ".py", by simp [endings], hfile⟩
  · exact ⟨l.dataClasses, ".py", by simp [endings], hfile⟩
  · exact ⟨l.encoded, "_pb2_grpc.py", by simp [endings], hfile⟩

theorem isFileName_append_ending {text ending : String} (htext : '/' ∉ text.toList)
    (hending : ending ∈ endings) : Path.IsFileName (text ++ ending) := by
  simp only [endings, List.mem_cons, List.not_mem_nil, or_false] at hending
  rcases hending with rfl | rfl | rfl <;> exact Path.isFileName_append _ htext (by simp) (by decide)

/-- The file of a service is named by a text without underscores and an ending; the text is the stem
of the service, if that has no slash. -/
theorem last_of_isServiceFile (h : IsServiceFile l names file)
    (hresolve : t.resolve file = .ok place) :
    ∃ name ∈ names, ∃ tail : String, ∃ ending ∈ endings, place.getLast? = some (tail ++ ending) ∧
      '_' ∉ tail.toList ∧ ('/' ∉ name.toList → tail = Naming.fileStem name) := by
  obtain ⟨name, hname, dir, ending, hending, hfile⟩ := exists_ending_of_isServiceFile h
  rw [hfile] at hresolve
  have hnames : ∀ text : String, '/' ∉ text.toList → Path.IsFileName (text ++ ending) :=
    fun text htext => isFileName_append_ending htext hending
  obtain ⟨tail, hlast, hchars, hstem⟩ := FileTree.last_of_resolve_push hnames hresolve
  refine ⟨name, hname, tail, ending, hending, hlast, fun hmem => ?_, fun hslash => ?_⟩
  · exact Naming.underscore_notMem_fileStem name (hchars _ hmem)
  · exact hstem (Naming.slash_notMem_fileStem hslash)

/-- Underscores and the last character tell the endings apart. -/
theorem ending_unique : ∀ ending ∈ endings, ∀ ending' ∈ endings,
    ('_' ∈ ending.toList ↔ '_' ∈ ending'.toList) →
      ending.toList.getLast? = ending'.toList.getLast? → ending = ending' := by
  decide

theorem tail_eq_of_append_eq {tail other ending ending' : String} (hending : ending ∈ endings)
    (hending' : ending' ∈ endings) (htail : '_' ∉ tail.toList) (hother : '_' ∉ other.toList)
    (heq : tail ++ ending = other ++ ending') : tail = other := by
  have hlists := congrArg String.toList heq
  rw [String.toList_append, String.toList_append] at hlists
  have hnonempty : ∀ e ∈ endings, e.toList ≠ [] := by decide
  have hlast : ending.toList.getLast? = ending'.toList.getLast? := by
    rw [← List.getLast?_append_of_ne_nil tail.toList (hnonempty ending hending), hlists,
      List.getLast?_append_of_ne_nil other.toList (hnonempty ending' hending')]
  have hmem : '_' ∈ ending.toList ↔ '_' ∈ ending'.toList := by
    have hiff : '_' ∈ tail.toList ++ ending.toList ↔ '_' ∈ other.toList ++ ending'.toList := by
      rw [hlists]
    simpa [htail, hother] using hiff
  obtain rfl := ending_unique ending hending ending' hending' hmem hlast
  exact String.toList_injective (List.append_cancel_right hlists)

/-- No file of a service is named like a file that all services share. -/
theorem append_ne_shared {tail ending name : String} (hending : ending ∈ endings)
    (htail : '_' ∉ tail.toList) (hname : name = packageFile ∨ name = "rpc_server.py") :
    tail ++ ending ≠ name := by
  intro heq
  have hlists := congrArg String.toList heq
  rw [String.toList_append] at hlists
  have hsuffix : ending.toList <:+ name.toList := ⟨_, hlists⟩
  have hunderscore : '_' ∈ ending.toList := by
    have hmem : '_' ∈ tail.toList ++ ending.toList := by
      rw [hlists]
      rcases hname with rfl | rfl <;> decide
    simpa [htail] using hmem
  simp only [endings, List.mem_cons, List.not_mem_nil, or_false] at hending
  rcases hending with rfl | rfl | rfl
  · exact absurd hunderscore (by decide)
  · exact absurd hunderscore (by decide)
  · rcases hname with rfl | rfl <;> exact absurd hsuffix (by decide)

/-- The packages of a server are below the one that its registration file makes. -/
theorem packageFile_ne_registration (hpackage : (Layout.server target).IsPackageFile file)
    (hfile : t.resolve file = .ok place) :
    t.resolve ((Layout.server target).root.push packageFile) ≠ .ok place := by
  intro hregistration
  obtain ⟨dir, hdir, hpath⟩ := hpackage
  rw [hpath] at hfile
  obtain ⟨inner, hinner, heq⟩ := FileTree.place_of_resolve_push isFileName_packageFile hfile
  obtain ⟨root, hroot, heq'⟩ :=
    FileTree.place_of_resolve_push isFileName_packageFile hregistration
  obtain rfl : root = inner := List.append_cancel_right (heq'.symm.trans heq)
  have hbelow : ∃ part, Path.IsFileName part ∧ dir = (Layout.server target).root.push part := by
    have hdirs : dir ∈ [(Layout.server target).descriptors, (Layout.server target).encoded,
      (Layout.server target).dataClasses] := hdir
    simp only [List.mem_cons, List.not_mem_nil, or_false] at hdirs
    rcases hdirs with hdir | hdir | hdir
    · exact ⟨"mid_file", by simp [Path.IsFileName], hdir⟩
    · exact ⟨"encode", by simp [Path.IsFileName], hdir⟩
    · exact ⟨"impl", by simp [Path.IsFileName], hdir⟩
  obtain ⟨part, hpart, hpath'⟩ := hbelow
  rw [hpath', FileTree.walk_push t _ hpart, Fallible.bind_eq_ok_iff] at hinner
  obtain ⟨outer, houter, hstep⟩ := hinner
  obtain rfl : outer = root := Except.ok.inj (houter.symm.trans hroot)
  obtain ⟨-, ⟨hnot, -⟩ | ⟨-, hlonger, -⟩⟩ := FileTree.step_eq_ok hstep
  · exact hnot hpart.2
  · simp at hlonger

/-- The registration file and the launcher are no files of services. -/
theorem isServiceFile_ne_shared (hservice : IsServiceFile l names file)
    (hfile : t.resolve file = .ok place) {dir : Path} {name : String}
    (hname : name = packageFile ∨ name = "rpc_server.py") :
    t.resolve (dir.push name) ≠ .ok place := by
  intro hshared
  have hpart : Path.IsFileName name := by
    rcases hname with rfl | rfl
    · exact isFileName_packageFile
    · simp [Path.IsFileName]
  obtain ⟨-, -, tail, ending, hending, hlast, htail, -⟩ := last_of_isServiceFile hservice hfile
  obtain ⟨root, -, heq⟩ := FileTree.place_of_resolve_push hpart hshared
  rw [heq, List.getLast?_concat] at hlast
  exact append_ne_shared hending htail hname (Option.some.inj hlast).symm

/-- Services with different stems have different files, unless there are slashes in their names. -/
theorem isServiceFile_ne_of_stems (hservice : IsServiceFile l names file)
    (hfile : t.resolve file = .ok place) {other : String} (hnames : ∀ name ∈ names,
      '/' ∉ name.toList ∧ Naming.fileStem name ≠ Naming.fileStem other)
    (hother : '/' ∉ other.toList) {file' : Path} (hservice' : IsServiceFile l [other] file') :
    t.resolve file' ≠ .ok place := by
  intro hfile'
  obtain ⟨name, hname, tail, ending, hending, hlast, htail, hstem⟩ :=
    last_of_isServiceFile hservice hfile
  obtain ⟨name', hname', tail', ending', hending', hlast', htail', hstem'⟩ :=
    last_of_isServiceFile hservice' hfile'
  obtain rfl := List.mem_singleton.mp hname'
  have heq := tail_eq_of_append_eq hending hending' htail htail'
    (Option.some.inj (hlast.symm.trans hlast'))
  rw [hstem (hnames name hname).1, hstem' hother] at heq
  exact (hnames name hname).2 heq

end Names

end RpcRun

end ServiceGen

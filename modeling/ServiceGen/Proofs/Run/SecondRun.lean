import ServiceGen.Proofs.Run.RpcEffects
import ServiceGen.Proofs.Run.Rediscovery
import ServiceGen.Proofs.Stub.Registration

/-!
Generating a second time.  Without git and the protocol compiler, a generation in the source project
that has succeeded succeeds again with the same report and leaves every file as it is: it discovers
the same services, finds all packages, writes every file as the first one has left it, and in the
registration file replaces the block of the project by itself.
-/

namespace ServiceGen

open Job

namespace Job

variable {α β : Type} {w : Workspace}

/-- A job that writes a file, after some work and before some more. -/
def writing (x : Job α) (file : Path) (text : String) (k : α → Job β) : Job β := do
  let a ← x
  writeFile file text
  k a

/-- A job that writes a file anew from what the file holds. -/
def rewriting (x : Job α) (file : Path) (renew : String → String) (k : α → Job β) : Job β := do
  let a ← x
  writeFile file (renew (← readExisting file))
  k a

variable {mayCreate mayWrite mayCreate' mayWrite' : Path → Prop} {x : Job α} {k : α → Job β}
  {file : Path} {renew : String → String}

theorem Repeats.again {a : α} (hx : x.Repeats mayCreate mayWrite) (ha : x.result w = .ok a) :
    ∃ created written, FileTree.Traces mayCreate mayWrite created written w.tree (x.after w).tree ∧
      x.result (x.after w) = .ok a ∧ x.after (x.after w) = x.after w := by
  obtain ⟨created, written, htraces, hagain⟩ := hx w a ha
  obtain ⟨hresult, hafter⟩ := hagain (x.after w) (.refl _)
  rw [htraces.changes.rewrite_eq] at hafter
  exact ⟨created, written, htraces, hresult, hafter⟩

theorem repeats_writing (hx : x.Repeats mayCreate mayWrite)
    (hk : ∀ a, (k a).Repeats mayCreate' mayWrite') (file : Path) (text : String) :
    (writing x file text k).Repeats (fun p => mayCreate p ∨ mayCreate' p)
      (fun p => mayWrite p ∨ p = file ∨ mayWrite' p) :=
  repeats_bind (hx.mono (fun _ => .inl) fun _ => .inl) fun a =>
    repeats_bind (repeats_writeFile (.inr (.inl rfl)) text) fun _ =>
      (hk a).mono (fun _ => .inr) fun _ hp => .inr (.inr hp)

/-- What the file holds decides on the text that is written. -/
theorem rewriting_eq_writing (renew : String → String) (k : α → Job β) {a : α} {text : String}
    (ha : x.result w = .ok a) (htext : (readExisting file).result (x.after w) = .ok text) :
    (rewriting x file renew k).result w = (writing x file (renew text) k).result w ∧
      (rewriting x file renew k).after w = (writing x file (renew text) k).after w := by
  rw [rewriting, writing, result_bind_of_ok ha, after_bind_of_ok ha, result_bind_of_ok ha,
    after_bind_of_ok ha, result_bind_of_ok htext, after_bind_of_ok htext, after_readExisting]
  exact ⟨rfl, rfl⟩

/-- Once the file is written, it holds that text to the end of the job, and also when the work
before it has been done again. -/
theorem holds_after_writing {a : α} {b : β} {text : String}
    (hx : x.Repeats mayCreate mayWrite) (hk : ∀ a, (k a).Repeats mayCreate' mayWrite')
    (hbefore : ∀ p, mayWrite p → Apart p file) (hlater : ∀ p, mayWrite' p → Apart p file)
    (ha : x.result w = .ok a) (hrun : (writing x file text k).result w = .ok b) :
    (x.after w).tree.Extends ((writing x file text k).after w).tree ∧
      x.result ((writing x file text k).after w) = .ok a ∧
        (readExisting file).result (x.after ((writing x file text k).after w)) = .ok text := by
  rw [writing, result_bind_of_ok ha] at hrun
  obtain ⟨⟨⟩, hwrite, hb⟩ := result_bind_eq_ok.mp hrun
  rw [writing, after_bind_of_ok ha, after_bind_of_ok hwrite]
  have hself : (writeFile file text).Repeats (fun _ => False) (fun p => p = file) :=
    repeats_writeFile (by rfl) text
  obtain ⟨created₁, written₁, htraces₁, hagain₁⟩ := hx w a ha
  obtain ⟨created₂, written₂, htraces₂, -⟩ := hself (x.after w) () hwrite
  obtain ⟨created₃, written₃, htraces₃, -⟩ := hk a _ b hb
  obtain ⟨q, hq, hfile⟩ := file_of_writeFile hwrite
  generalize (writeFile file text).after (x.after w) = w₂ at *
  generalize (k a).after w₂ = w₃ at *
  have hq₃ := htraces₃.changes.grows.resolve hq
  have hfile₃ : w₃.tree.get? q = some (.file (.text text)) := by
    rw [htraces₃.changes.get?_eq (by simp [hfile]) (htraces₃.notMem_written (.refl _)
      fun p hp hresolve => hlater p hp _ q hresolve hq₃), hfile]
  have hgrows : (x.after w).tree.Extends w₃.tree :=
    htraces₂.changes.grows.trans htraces₃.changes.grows
  obtain ⟨ha', hafter⟩ := hagain₁ w₃ hgrows
  have hfiles := htraces₁.changes.hasFiles.extends hgrows
  have hread : (readExisting file).result (x.after w₃) = .ok text := by
    rw [hafter]
    refine readExisting_of_file (hfiles.extends_rewrite.resolve hq₃) ?_
    rw [FileTree.get?_rewrite_of_notMem hfiles (htraces₁.notMem_written hgrows fun p hp hresolve =>
      hbefore p hp _ q hresolve hq₃), hfile₃]
  exact ⟨hgrows, ha', hread⟩

/-- When the work before and after repeats itself and leaves the file alone, and renewing the text
once more does not change it, then the job may be done again and changes nothing. -/
theorem rewriting_again {b : β} (hrun : (rewriting x file renew k).result w = .ok b)
    (hx : x.Repeats mayCreate mayWrite) (hk : ∀ a, (k a).Repeats mayCreate' mayWrite')
    (hbefore : ∀ p, mayCreate p ∨ mayWrite p → Apart p file)
    (hlater : ∀ p, mayWrite' p → Apart p file)
    (hempty : renew (renew "") = renew "")
    (hrenew : ∀ text place, ((rewriting x file renew k).after w).tree.resolve file = .ok place →
      w.tree.get? place = some (.file (.text text)) → renew (renew text) = renew text) :
    ∃ created written, FileTree.Traces (fun p => mayCreate p ∨ mayCreate' p)
        (fun p => mayWrite p ∨ p = file ∨ mayWrite' p) created written w.tree
          ((rewriting x file renew k).after w).tree ∧
      (rewriting x file renew k).result ((rewriting x file renew k).after w) = .ok b ∧
        (rewriting x file renew k).after ((rewriting x file renew k).after w) =
          (rewriting x file renew k).after w := by
  obtain ⟨a, ha, hrest⟩ := result_bind_eq_ok.mp hrun
  obtain ⟨text, htext, -⟩ := result_bind_eq_ok.mp hrest
  obtain ⟨hresult, hafter⟩ := rewriting_eq_writing renew k ha htext
  rw [hresult] at hrun
  rw [hafter] at hrenew ⊢
  obtain ⟨created, written, htraces, hagain, hsame⟩ :=
    (repeats_writing hx hk file (renew text)).again hrun
  obtain ⟨hgrows, ha', htext'⟩ :=
    holds_after_writing hx hk (fun p hp => hbefore p (.inr hp)) hlater ha hrun
  have hfixed : renew (renew text) = renew text := by
    rcases readExisting_eq_ok htext with rfl | ⟨q, hq, hold⟩
    · exact hempty
    · refine hrenew text q (hgrows.resolve hq) ?_
      obtain ⟨created₁, written₁, htraces₁, -⟩ := hx w a ha
      rw [← FileTree.file?_eq_some] at hold ⊢
      rw [← htraces₁.file?_eq fun p hp hresolve => hbefore p hp _ q hresolve hq, hold]
  obtain ⟨hresult', hafter'⟩ := rewriting_eq_writing renew k ha' htext'
  rw [hfixed] at hresult' hafter'
  exact ⟨created, written, htraces, hresult'.trans hagain, hafter'.trans hsame⟩

end Job

namespace Registration

/-- A character that is in no line, and no line feed, is not in the text of the lines. -/
theorem notMem_render {u : Char} (hfeed : u ≠ '\n') {blocks : List Block}
    (h : ∀ b ∈ blocks, b = .blank ∨ ∃ text, b = .line text ∧ u ∉ text.toList) :
    u ∉ (Block.render blocks).toList := by
  unfold Block.render
  induction blocks with
  | nil => simp
  | cons b rest ih =>
      rw [List.forall_mem_cons] at h
      rw [Block.textAllAt_cons, String.toList_append, List.mem_append, not_or]
      refine ⟨?_, ih h.2⟩
      rcases h.1 with rfl | ⟨text, rfl, htext⟩
      · simp [Block.textAt, hfeed]
      · have hmargin : Block.margin 0 = "" := rfl
        simp [Block.textAt, Block.lineText, hmargin, htext, hfeed]

/-- The lines that register services do not end the block of their project. -/
theorem projectBody_unclosed {services : List Service}
    (hnames : ∀ s ∈ services, '#' ∉ s.name.toList) :
    ¬ closing.toList <:+: (projectBody services).toList := by
  have hmem : '#' ∈ closing.toList := by decide
  refine fun hclosed => absurd (hclosed.subset hmem) (notMem_render (by decide) fun b hb => ?_)
  have hstem : ∀ s ∈ services, '#' ∉ s.stem.toList := by
    intro s hs
    simp [Service.stem, Naming.mem_fileStem_iff (.inr (.inr rfl)), hnames s hs]
  have hclass : ∀ s ∈ services, '#' ∉ s.className.toList := by
    intro s hs
    simp [Service.className, Naming.mem_pretty_iff (.inr (.inr rfl)), hnames s hs]
  simp only [bodyBlocks, List.mem_append, List.mem_map, List.mem_singleton] at hb
  rcases hb with (⟨s, hs, rfl⟩ | rfl) | ⟨s, hs, rfl⟩
  · exact .inr ⟨_, rfl, by simp [hstem s hs, hclass s hs]⟩
  · exact .inl rfl
  · exact .inr ⟨_, rfl, by simp [hstem s hs, hclass s hs]⟩

/-- Registering the services of a project once more changes nothing. -/
theorem registration_twice {project existing : String} {services : List Service}
    (htrim : Text.trim project = project) (hline : '\n' ∉ project.toList)
    (hvisible : Text.allBlank project = false) (hnames : ∀ s ∈ services, '#' ∉ s.name.toList)
    (hblocks : ∀ b ∈ projectBlocks existing, Text.allBlank b.name = false) :
    registration (registration existing project (projectBody services)) project
      (projectBody services) = registration existing project (projectBody services) := by
  have hb : ProjectBlock.Printable ⟨project, projectBody services⟩ :=
    ⟨htrim, hline, hvisible, projectBody_unclosed hnames⟩
  exact registration_registration (b := ⟨project, projectBody services⟩) hblocks hb

end Registration

namespace RpcRun

variable {settings : Settings} {o : RpcOptions} {stubs : StubOptions} {l : Layout} {s : Service}
  {found : List Service} {mayCreate mayWrite : Path → Prop}

/-- The generation works in the source project and starts no other program. -/
structure Unaided (settings : Settings) (o : RpcOptions) : Prop where
  inPlace : o.outside = none
  noGit : o.skipVersionControl = true
  noCompiler : o.skipCompiler = true ∨ settings.compiler.enabled = false

theorem repeats_service (hunaided : Unaided settings o)
    (h : ∀ file ∈ serviceFiles l s.name, mayWrite file) :
    (service settings o stubs l s).Repeats mayCreate mayWrite := by
  have hdisabled : ¬ (!o.skipCompiler && settings.compiler.enabled) = true := by
    rcases hunaided.noCompiler with hskip | hoff
    · simp [hskip]
    · simp [hoff]
  have hdescriptor : descriptor settings o l s =
      emit [(descriptorFile l s, (Descriptor.ofService s).render)] := by
    rw [descriptor_eq, Compiler.compile, if_neg hdisabled]
    exact bind_pure _
  have hemit : (emit [(descriptorFile l s, (Descriptor.ofService s).render)]).Repeats
      mayCreate mayWrite := by
    refine repeats_emit fun file hmem => ?_
    have hfile : file.1 = descriptorFile l s := by rw [List.mem_singleton.mp hmem]
    rw [hfile]
    exact h _ (descriptorFile_mem l s)
  rw [service, hdescriptor]
  exact repeats_bind hemit fun _ => repeats_bind (repeats_emit fun file hmem =>
    h _ (modules_mem stubs hmem)) fun _ => repeats_pure _

/-- The files of some services in a layout. -/
def filesOf (l : Layout) (found : List Service) : List Path :=
  (found.map (·.name)).flatMap (serviceFiles l)

theorem isServiceFile_of_mem {file : Path} (hfile : file ∈ filesOf l found) :
    IsServiceFile l (found.map (·.name)) file := by
  obtain ⟨name, hname, hfile⟩ := List.mem_flatMap.mp hfile
  exact ⟨name, hname, .inl hfile⟩

theorem repeats_services (hunaided : Unaided settings o) :
    (services settings o stubs l found).Repeats l.IsPackageFile (· ∈ filesOf l found) := by
  have hruntime : Git.ensureRuntime (!o.skipVersionControl) l settings.runtime = pure () := by
    rw [hunaided.noGit]
    rfl
  rw [services_eq, hruntime]
  refine repeats_bind (repeats_ensure fun _ => id) fun _ => repeats_bind (repeats_pure ()) fun _ =>
    repeats_bind (repeats_mapM fun s hs => repeats_service hunaided fun file hfile => ?_) fun _ =>
      repeats_pure _
  exact List.mem_flatMap.mpr ⟨s.name, List.mem_map_of_mem hs, hfile⟩

/-- The file belongs to a client, if one is wanted. -/
def IsClientFile (o : RpcOptions) (found : List Service) (file : Path) : Prop :=
  ∃ client, o.client = some client ∧ file ∈ filesOf (.client client) found

def IsClientPackage (o : RpcOptions) (file : Path) : Prop :=
  ∃ client, o.client = some client ∧ (Layout.client client).IsPackageFile file

theorem repeats_call (hunaided : Unaided settings o) :
    (call settings o found).Repeats (IsClientPackage o) (IsClientFile o found) := by
  unfold call
  cases hclient : o.client with
  | none => exact repeats_pure []
  | some client =>
      exact (repeats_services hunaided).mono (fun file hfile => ⟨client, hclient, hfile⟩)
        fun file hfile => ⟨client, hclient, hfile⟩

/-- Writes the launcher and generates a client, if one is wanted. -/
def finish (settings : Settings) (o : RpcOptions) (l : Layout) (found : List Service)
    (stubFiles : List Path) : Job RpcReport := do
  let launcherFile ← emit [(l.base.push "rpc_server.py", launcher none)]
  let called ← call settings o found
  return { services := found.map (·.name)
           written := stubFiles ++ [l.root.push packageFile] ++ launcherFile ++ called }

/-- In the source project, a server renews its registration file between its stubs and the rest. -/
theorem generate_eq_rewriting (settings : Settings) (found : List Service)
    (hplace : o.outside = none) (hserver : o.serverCode = true) :
    let l := Layout.server ⟨o.source⟩
    generate settings o found =
      rewriting (services settings o (stubOptions settings o) l found) (l.root.push packageFile)
        (Registration.registration · o.project (Registration.projectBody found))
        (finish settings o l found) := by
  intro l
  have htarget : serverTarget o = some ⟨o.source⟩ := by
    rw [serverTarget, hplace, hserver]
    rfl
  have hemit : ∀ file text,
      emit [(file, text)] = (writeFile file text >>= fun _ => pure [file]) := by
    intro file text
    simp only [emit, List.mapM_cons, List.mapM_nil, bind_assoc, pure_bind]
  rw [generate, serve, htarget]
  simp only [server, hplace, hemit, rewriting, finish, call, Option.mapM_none, bind_assoc,
    pure_bind, List.append_assoc]
  rfl

def launcherFile (l : Layout) : Path := l.base.push "rpc_server.py"

theorem mem_serverFiles_of_shared {target file : Path} {names : List String}
    (hfile : file = (Layout.server target).root.push packageFile ∨
      file = launcherFile (.server target)) : file ∈ serverFiles target names :=
  List.mem_append_right _ (by simpa [launcherFile] using hfile)

theorem repeats_finish (hunaided : Unaided settings o) (stubFiles : List Path) :
    (finish settings o l found stubFiles).Repeats (IsClientPackage o)
      (fun file => file = launcherFile l ∨ IsClientFile o found file) := by
  refine repeats_bind (repeats_emit fun file hmem => .inl ?_) fun _ =>
    repeats_bind ((repeats_call hunaided).mono (fun _ => id) fun _ => .inr) fun _ =>
      repeats_pure _
  rw [List.mem_singleton.mp hmem]
  rfl

/-- The layouts that a generation in the source project fills. -/
def layouts (o : RpcOptions) : List Layout :=
  (if o.serverCode then [.server ⟨o.source⟩] else []) ++ o.client.toList.map .client

/-- All files of a generation that has given a report. -/
def generatedFiles (o : RpcOptions) (report : RpcReport) : List Path :=
  report.written ++ (layouts o).flatMap fun l => l.packages.map (·.push packageFile)

/-- The file is written for some services. -/
def IsWritten (o : RpcOptions) (found : List Service) (file : Path) : Prop :=
  (o.serverCode = true ∧ file ∈ serverFiles ⟨o.source⟩ (found.map (·.name))) ∨
    IsClientFile o found file

/-- The file makes a directory of a layout a package. -/
def IsCreated (o : RpcOptions) (file : Path) : Prop :=
  ∃ l ∈ layouts o, l.IsPackageFile file

theorem serverTarget_eq (hplace : o.outside = none) :
    serverTarget o = if o.serverCode then some ⟨o.source⟩ else none := by
  rw [serverTarget, hplace]

/-- The report has the names of the services, and all files that are written. -/
theorem generate_gives (hplace : o.outside = none) :
    (generate settings o found).Gives fun report => report.services = found.map (·.name) ∧
      ∀ file, IsWritten o found file → file ∈ report.written := by
  refine gives_bind fun w served hserved => gives_bind fun v called hcalled => gives_pure ⟨rfl, ?_⟩
  rw [serve, serverTarget_eq hplace] at hserved
  rintro file (⟨hserver, hfile⟩ | ⟨client, hclient, hfile⟩)
  · rw [hserver, if_pos rfl] at hserved
    rw [server_gives _ _ _ _ _ w served hserved]
    exact List.mem_append_left _ hfile
  · rw [call, hclient] at hcalled
    rw [services_give _ _ _ _ _ v called hcalled]
    exact List.mem_append_right _ hfile

section Again

variable {w : Workspace} {report : RpcReport}

/-- What is written before the registration file is another file. -/
theorem apart_of_before {target file : Path}
    (hfile : (Layout.server target).IsPackageFile file ∨ file ∈ filesOf (.server target) found) :
    Apart file ((Layout.server target).root.push packageFile) := by
  intro t place hplace
  rcases hfile with hpackage | hfile
  · exact packageFile_ne_registration hpackage hplace
  · exact isServiceFile_ne_shared (isServiceFile_of_mem hfile) hplace (.inl rfl)

/-- What is written after the registration file is another file. -/
theorem apart_of_later {target file : Path}
    (hfile : file = launcherFile (.server target) ∨ IsClientFile o found file) :
    Apart file ((Layout.server target).root.push packageFile) := by
  intro t place hplace
  rcases hfile with hlauncher | ⟨client, -, hfile⟩
  · rw [hlauncher] at hplace
    exact FileTree.resolve_push_ne (by simp [Path.IsFileName]) isFileName_packageFile (by decide)
      hplace _
  · exact isServiceFile_ne_shared (isServiceFile_of_mem hfile) hplace (.inl rfl)

/-- A generation for known services may be done again. -/
theorem generate_again (hunaided : Unaided settings o) (hproject : Text.trim o.project = o.project)
    (hline : '\n' ∉ o.project.toList) (hvisible : Text.allBlank o.project = false)
    (hnames : ∀ s ∈ found, '#' ∉ s.name.toList)
    (hregistration : o.serverCode = true → ∀ place text,
      ((generate settings o found).after w).tree.resolve
          ((Layout.server ⟨o.source⟩).root.push packageFile) = .ok place →
        w.tree.get? place = some (.file (.text text)) →
          ∀ b ∈ Registration.projectBlocks text, Text.allBlank b.name = false)
    (hrun : (generate settings o found).result w = .ok report) :
    ∃ created written, FileTree.Traces (IsCreated o) (IsWritten o found) created written w.tree
        ((generate settings o found).after w).tree ∧
      (generate settings o found).result ((generate settings o found).after w) = .ok report ∧
        (generate settings o found).after ((generate settings o found).after w) =
          (generate settings o found).after w := by
  cases hserver : o.serverCode with
  | false =>
      have hserve : serve settings o found = pure [] := by
        rw [serve, serverTarget_eq hunaided.inPlace, hserver]
        rfl
      have hrepeats : (generate settings o found).Repeats (IsCreated o) (IsWritten o found) := by
        rw [generate, hserve, pure_bind]
        refine repeats_bind ((repeats_call hunaided).mono ?_ fun file hfile => .inr hfile) fun _ =>
          repeats_pure _
        rintro file ⟨client, hclient, hfile⟩
        exact ⟨.client client, by simp [layouts, hserver, hclient], hfile⟩
      exact hrepeats.again hrun
  | true =>
      have heq := generate_eq_rewriting settings found hunaided.inPlace hserver
      rw [heq] at hrun hregistration ⊢
      obtain ⟨created, written, htraces, hagain⟩ := rewriting_again hrun
        (repeats_services hunaided) (repeats_finish hunaided) (fun _ => apart_of_before)
        (fun _ => apart_of_later)
        (Registration.registration_twice hproject hline hvisible hnames
          (by simp [Registration.projectBlocks, Registration.blocksFrom]))
        fun text place hplaced hold =>
          Registration.registration_twice hproject hline hvisible hnames
            (hregistration hserver place text hplaced hold)
      refine ⟨created, written, htraces.mono ?_ ?_, hagain⟩
      · rintro file (hfile | ⟨client, hclient, hfile⟩)
        · exact ⟨.server ⟨o.source⟩, by simp [layouts, hserver], hfile⟩
        · exact ⟨.client client, by simp [layouts, hclient], hfile⟩
      · rintro file (hfile | hfile | hfile | hfile)
        · exact .inl ⟨hserver, List.mem_append_left _ hfile⟩
        · exact .inl ⟨hserver, mem_serverFiles_of_shared (.inl hfile)⟩
        · exact .inl ⟨hserver, mem_serverFiles_of_shared (.inr hfile)⟩
        · exact .inr hfile

/-- The path is another one with a file name behind it. -/
def IsNamed (file : Path) : Prop :=
  ∃ (dir : Path) (part : String), Path.IsFileName part ∧ file = dir.push part

theorem isNamed_of_mem_filesOf (hnames : ∀ s ∈ found, '/' ∉ s.name.toList) {file : Path}
    (hfile : file ∈ filesOf l found) : IsNamed file := by
  obtain ⟨name, hname, dir, ending, hending, hpath⟩ :=
    exists_ending_of_isServiceFile (isServiceFile_of_mem hfile)
  obtain ⟨s, hs, rfl⟩ := List.mem_map.mp hname
  exact ⟨dir, _, isFileName_append_ending (Naming.slash_notMem_fileStem (hnames s hs)) hending,
    hpath⟩

theorem isNamed_of_isWritten (hnames : ∀ s ∈ found, '/' ∉ s.name.toList) {file : Path}
    (hfile : IsWritten o found file) : IsNamed file := by
  rcases hfile with ⟨-, hfile⟩ | ⟨client, -, hfile⟩
  · rcases List.mem_append.mp hfile with hfile | hfile
    · exact isNamed_of_mem_filesOf hnames hfile
    · simp only [List.mem_cons, List.not_mem_nil, or_false] at hfile
      rcases hfile with hfile | hfile
      · exact ⟨_, _, isFileName_packageFile, hfile⟩
      · exact ⟨_, _, by simp [Path.IsFileName], hfile⟩
  · exact isNamed_of_mem_filesOf hnames hfile

/-- A place is named like no document when the path to it is. -/
theorem isNoDocument_of_isNamed {file : Path} {suffix : String} {t : FileTree}
    {place : List String} (hnamed : IsNamed file) (hresolve : t.resolve file = .ok place)
    (hsuffix : ∀ name, file.fileName? = some name → Text.stripEnd? suffix name = none) :
    Loading.IsNoDocument suffix place := by
  obtain ⟨dir, part, hpart, hpath⟩ := hnamed
  rw [hpath] at hresolve hsuffix
  obtain ⟨outer, -, heq⟩ := FileTree.place_of_resolve_push hpart hresolve
  intro name hname
  rw [heq, List.getLast?_concat] at hname
  obtain rfl := Option.some.inj hname
  exact hsuffix part (Path.fileName?_push hpart dir)

/-- A generation in the source project without git and the protocol compiler has nothing left to do
when it has succeeded: done again, it gives the same report and leaves all files as they are.  The
services are to have identifiers for names, the name of the project is to be visible and trimmed on
one line, no generated file may be named like a document, and a registration file that was there
before may have no block without a visible name. -/
theorem second_run_changes_nothing {settings : Settings} {o : RpcOptions} {w : Workspace}
    {report : RpcReport} (hunaided : Unaided settings o)
    (hproject : Text.trim o.project = o.project) (hline : '\n' ∉ o.project.toList)
    (hvisible : Text.allBlank o.project = false)
    (hnames : ∀ name ∈ report.services, Naming.isIdentifier name = true)
    (hsuffix : ∀ file ∈ generatedFiles o report, ∀ name, file.fileName? = some name →
      Text.stripEnd? settings.scan.suffix name = none)
    (hregistration : o.serverCode = true → ∀ place text,
      ((run settings o).after w).tree.resolve
          ((Layout.server ⟨o.source⟩).root.push packageFile) = .ok place →
        w.tree.get? place = some (.file (.text text)) →
          ∀ b ∈ Registration.projectBlocks text, Text.allBlank b.name = false)
    (hrun : (run settings o).result w = .ok report) :
    (run settings o).result ((run settings o).after w) = .ok report ∧
      (run settings o).after ((run settings o).after w) = (run settings o).after w := by
  cases hfound : Discovery.ofDirectory w.tree (declarationPath o) settings.scan
      o.needImplementation with
  | error e =>
      rw [(run_of_undiscovered hunaided.inPlace hfound).1] at hrun
      cases hrun
  | ok d =>
      obtain ⟨hresult, hafter⟩ := run_of_discovered settings hunaided.inPlace hfound
      rw [hresult] at hrun
      rw [hafter] at hregistration ⊢
      obtain ⟨hservices, hwritten⟩ := generate_gives hunaided.inPlace w report hrun
      have hidentifiers : ∀ s ∈ d.services, Naming.isIdentifier s.name = true := by
        intro s hs
        exact hnames s.name (hservices ▸ List.mem_map_of_mem hs)
      obtain ⟨created, written, htraces, hagain, hsame⟩ := generate_again hunaided hproject hline
        hvisible (fun s hs => Naming.notMem_of_isIdentifier (hidentifiers s hs) (by decide))
        hregistration hrun
      have hslashes : ∀ s ∈ d.services, '/' ∉ s.name.toList := fun s hs =>
        Naming.notMem_of_isIdentifier (hidentifiers s hs) (by decide)
      have hfound' : Discovery.ofDirectory ((generate settings o d.services).after w).tree
          (declarationPath o) settings.scan o.needImplementation = .ok d := by
        refine Discovery.ofDirectory_of_changes htraces.changes (fun place hplace => ?_)
          (fun entry hentry => ?_) hfound
        · obtain ⟨file, ⟨l, hl, dir, hdir, hpath⟩, hresolve⟩ := htraces.created_path place hplace
          refine isNoDocument_of_isNamed ⟨dir, _, isFileName_packageFile, hpath⟩ hresolve
            (hsuffix file (List.mem_append_right _ (List.mem_flatMap.mpr ⟨l, hl, ?_⟩)))
          exact List.mem_map.mpr ⟨dir, hdir, hpath.symm⟩
        · obtain ⟨file, hfile, hresolve⟩ := htraces.written_path entry hentry
          exact isNoDocument_of_isNamed (isNamed_of_isWritten hslashes hfile) hresolve
            (hsuffix file (List.mem_append_left _ (hwritten file hfile)))
      obtain ⟨hresult', hafter'⟩ := run_of_discovered settings hunaided.inPlace hfound'
      rw [hresult', hafter']
      exact ⟨hagain, hsame⟩

end Again

end RpcRun

namespace SecondRunWitness

open Fallible Job RpcRun ServerFilesWitness

def withClient : RpcOptions := { options with client := some ⟨"/web"⟩ }

/-- What the project `bank` has been registered with. -/
def bankText : String := Registration.registration "" "bank" (Registration.projectBody [])

/-- The project `shop`, in which `bank` has been generated before. -/
def registered : Workspace :=
  { tree := ⟨[(["app"], .directory), (["app", "rpc"], .directory),
      (["app", "rpc", "__init__.py"], .file (.text bankText)),
      (["app", "shop.rpc.json"], .file (.text ("[[" ++ moduleText "a" ++ "]]")))]⟩
    programs := [], exits := [], started := [] }

def demoReport : RpcReport :=
  { services := ["Demo"]
    written := serverFiles ⟨"/app"⟩ ["Demo"] ++ serviceFiles (.client ⟨"/web"⟩) "Demo" }

theorem shop_evaluated :
    ((run .standard withClient).result registered).toOption = some demoReport ∧
      (((run .standard withClient).after registered).tree.resolve
        ((Layout.server ⟨"/app"⟩).root.push packageFile)).toOption =
          some ["app", "rpc", "__init__.py"] := by
  decide +kernel

theorem shop_again :
    (run .standard withClient).result registered = .ok demoReport ∧
      (run .standard withClient).result ((run .standard withClient).after registered) =
          .ok demoReport ∧
        (run .standard withClient).after ((run .standard withClient).after registered) =
          (run .standard withClient).after registered := by
  obtain ⟨hrun, hplace⟩ := shop_evaluated
  have hold : registered.tree.get? ["app", "rpc", "__init__.py"] =
      some (.file (.text bankText)) := by
    decide +kernel
  have hblocks : ∀ b ∈ Registration.projectBlocks bankText, Text.allBlank b.name = false := by
    decide +kernel
  have hnames : ∀ file ∈ generatedFiles withClient demoReport,
      file.fileName?.bind (Text.stripEnd? ScanSettings.standard.suffix) = none := by
    decide +kernel
  refine ⟨eq_ok_of_toOption hrun, second_run_changes_nothing ⟨rfl, rfl, .inl rfl⟩
    (by decide +kernel) (by decide +kernel) (by decide +kernel) (by decide +kernel) ?_ ?_
    (eq_ok_of_toOption hrun)⟩
  · intro file hfile name hname
    have hnone := hnames file hfile
    rwa [hname] at hnone
  · intro _ place text hresolve hget
    obtain rfl : ["app", "rpc", "__init__.py"] = place :=
      Except.ok.inj ((eq_ok_of_toOption hplace).symm.trans hresolve)
    obtain rfl : bankText = text := by
      simpa using hold.symm.trans hget
    exact hblocks

end SecondRunWitness

end ServiceGen

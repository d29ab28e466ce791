import ServiceGen.Proofs.CommandLine.ProjectName
import ServiceGen.Proofs.Files.Parent
import ServiceGen.Proofs.Run.RpcEffects

/-!
Where a detached server has its source project.  The project is brought in as a submodule by
commands that run in the directory of the server and know the submodule by the name of the project;
`source_project_is_direct_child` says that this name leads to a direct child of the directory, in
which the declarations are looked for.
-/

namespace ServiceGen

open Job

variable {α β : Type} {dir : Path}

/-- A path is that of a direct child of a directory, under this name. -/
structure Path.IsChild (dir : Path) (name : String) (p : Path) : Prop where
  components : p.components = dir.components ++ [.name name]
  parent : ∃ around, p.parent? = some around ∧ around.components = dir.components
  /-- In every tree the path leads to the entry of that name in the place of the directory. -/
  place : ∀ (t : FileTree) (around place : List String),
    t.resolve dir = .ok around → t.resolve p = .ok place → place = around ++ [name]

theorem Path.isChild_push {name : String} (hname : Path.IsFileName name) (dir : Path) :
    dir.IsChild name (dir.push name) where
  components := components_push hname dir
  parent := by
    have hfile : (dir.push name).fileName?.isSome = true := by rw [fileName?_push hname]; rfl
    obtain ⟨around, hparent, haround⟩ := exists_parent hfile
    rw [components_push hname, List.dropLast_concat] at haround
    exact ⟨around, hparent, haround⟩
  place := by
    intro t around place hdir hplace
    obtain ⟨found, hfound, rfl⟩ := FileTree.place_of_resolve_push hname hplace
    obtain rfl := Except.ok.inj (hfound.symm.trans (FileTree.resolve_eq_ok.mp hdir).2)
    rfl

namespace Job

/-- However the job ends, the tree has only grown, and what the job has started are commands of git,
each with one of these lists of arguments and in the place that the directory leads to. -/
def StartsGit (dir : Path) (offered : List (List String)) (x : Job α) : Prop :=
  ∀ w, w.tree.Extends (x.after w).tree ∧ ∃ commands, (x.after w).started = w.started ++ commands ∧
    ∀ c ∈ commands, c.program = "git" ∧ c.arguments ∈ offered ∧
      ∃ place, (x.after w).tree.resolve dir = .ok place ∧ c.place = some place

variable {offered : List (List String)}

theorem startsGit_of_started {x : Job α} (hgrows : ∀ w : Workspace, w.tree.Extends (x.after w).tree)
    (h : ∀ w, (x.after w).started = w.started) : x.StartsGit dir offered :=
  fun w => ⟨hgrows w, [], by rw [h w, List.append_nil], nofun⟩

theorem startsGit_pure (a : α) : (pure a : Job α).StartsGit dir offered :=
  startsGit_of_started (fun w => .refl w.tree) fun _ => rfl

theorem startsGit_bind {x : Job α} {f : α → Job β} (hx : x.StartsGit dir offered)
    (hf : ∀ a, (f a).StartsGit dir offered) : (x >>= f).StartsGit dir offered := by
  intro w
  obtain ⟨hgrows, commands, hstarted, hcommands⟩ := hx w
  cases hresult : x.result w with
  | error e =>
      rw [after_bind_of_error hresult]
      exact ⟨hgrows, commands, hstarted, hcommands⟩
  | ok a =>
      obtain ⟨hgrows', commands', hstarted', hcommands'⟩ := hf a (x.after w)
      rw [after_bind_of_ok hresult]
      refine ⟨hgrows.trans hgrows', commands ++ commands', ?_, fun c hc => ?_⟩
      · rw [hstarted', hstarted, List.append_assoc]
      · rcases List.mem_append.mp hc with hc | hc
        · obtain ⟨hprogram, harguments, place, hplace, hc⟩ := hcommands c hc
          exact ⟨hprogram, harguments, place, hgrows'.resolve hplace, hc⟩
        · exact hcommands' c hc

theorem startsGit_start {arguments : List String} (harguments : arguments ∈ offered) :
    (start (some dir) "git" arguments).StartsGit dir offered := by
  intro w
  rcases after_start (some dir) "git" arguments w with hafter | ⟨place, hplace, hafter⟩
  · rw [hafter]
    exact ⟨.refl w.tree, [], (List.append_nil _).symm, nofun⟩
  · rw [hafter]
    refine ⟨.refl w.tree, [⟨some place, "git", arguments⟩], rfl, fun c hc => ?_⟩
    obtain rfl := List.mem_singleton.mp hc
    exact ⟨rfl, harguments, place, hplace, rfl⟩

theorem startsGit_tree : tree.StartsGit dir offered :=
  startsGit_of_started (fun w => .refl w.tree) fun _ => rfl

theorem startsGit_makeDirectories (p : Path) : (makeDirectories p).StartsGit dir offered := by
  have hwrites : (makeDirectories p).Writes (fun _ => False) (fun _ => False) :=
    writes_makeDirectories p
  refine startsGit_of_started hwrites.grows fun w => ?_
  rw [makeDirectories, after_change]
  split <;> rfl

end Job

namespace Git

variable {offered : List (List String)} {arguments : List String}

theorem startsGit_run (harguments : arguments ∈ offered) :
    (run dir arguments).StartsGit dir offered := by
  refine startsGit_bind (startsGit_start harguments) fun status => ?_
  split
  · exact startsGit_pure _
  · exact startsGit_of_started (fun w => .refl w.tree) fun _ => rfl
  · exact startsGit_of_started (fun w => .refl w.tree) fun _ => rfl

theorem startsGit_discard_run (harguments : arguments ∈ offered) :
    (discard (run dir arguments) : Job PUnit).StartsGit dir offered := by
  rw [discard_eq]
  exact startsGit_bind (startsGit_run harguments) fun _ => startsGit_pure ()

theorem startsGit_ensureRepository (enabled : Bool) (hinit : ["init"] ∈ offered) :
    (ensureRepository enabled dir).StartsGit dir offered := by
  refine startsGit_bind startsGit_tree fun t => ?_
  split
  · exact startsGit_pure ()
  · refine startsGit_bind (startsGit_makeDirectories dir) fun _ => ?_
    split
    · exact startsGit_discard_run hinit
    · exact startsGit_pure ()

theorem startsGit_addSubmodule (enabled : Bool) {source name : String}
    (hadd : ["submodule", "add", source, name] ∈ offered) :
    (addSubmodule enabled dir source name).StartsGit dir offered := by
  unfold addSubmodule
  refine startsGit_bind startsGit_tree fun t => ?_
  split
  · exact startsGit_discard_run hadd
  · exact startsGit_pure ()

theorem startsGit_updateSubmodules (enabled recursive : Bool) {name : Option String}
    (hupdate : updateArguments recursive name ∈ offered) :
    (updateSubmodules enabled dir recursive name).StartsGit dir offered := by
  unfold updateSubmodules
  split
  · exact startsGit_discard_run hupdate
  · exact startsGit_pure ()

end Git

namespace RpcRun

variable {o : RpcOptions}

/-- The lists of arguments with which git is started for a source project: of these, two have the
name of its submodule in them. -/
def submoduleArguments (source name : String) : List (List String) :=
  [["init"], ["submodule", "add", source, name],
    ["submodule", "update", "--init", "--remote", "--recursive", "--", name]]

theorem declarationRoot_of_detached (houtside : o.outside = some dir) :
    declarationRoot o = (do
      Git.ensureRepository (!o.skipVersionControl) dir
      Git.addSubmodule (!o.skipVersionControl) dir o.source o.project
      Git.updateSubmodules (!o.skipVersionControl) dir true (some o.project)
      return o.declarations.getD (dir.push o.project)) := by
  simp only [declarationRoot, houtside, Option.map_some, Option.getD_some]

theorem startsGit_declarationRoot (houtside : o.outside = some dir) :
    (declarationRoot o).StartsGit dir (submoduleArguments o.source o.project) := by
  rw [declarationRoot_of_detached houtside]
  exact startsGit_bind (Git.startsGit_ensureRepository _ (by simp [submoduleArguments])) fun _ =>
    startsGit_bind (Git.startsGit_addSubmodule _ (by simp [submoduleArguments])) fun _ =>
      startsGit_bind (Git.startsGit_updateSubmodules _ _
        (by simp [submoduleArguments, Git.updateArguments])) fun _ => startsGit_pure _

theorem declarationRoot_gives (houtside : o.outside = some dir) :
    (declarationRoot o).Gives (· = o.declarations.getD (dir.push o.project)) := by
  rw [declarationRoot_of_detached houtside]
  exact gives_bind fun _ _ _ => gives_bind fun _ _ _ => gives_bind fun _ _ _ => gives_pure rfl

/-- Whatever address a project is taken from, its name is one component, so that it leads from the
directory of a detached server to a direct child.  Every command that brings the source project in
runs in that directory and has the project under this name, and the declarations are looked for in
the child unless another directory is named for them. -/
theorem source_project_is_direct_child {source name : String}
    (hname : projectName? source = some name) (dir : Path) :
    (name ≠ "" ∧ name ≠ "." ∧ name ≠ ".." ∧ '/' ∉ name.toList ∧ ':' ∉ name.toList) ∧
    dir.IsChild name (dir.push name) ∧
    ∀ (o : RpcOptions) (w : Workspace), o.source = source → o.project = name →
      o.outside = some dir →
        (∃ commands, ((declarationRoot o).after w).started = w.started ++ commands ∧
          ∀ c ∈ commands, c.program = "git" ∧ c.arguments ∈ submoduleArguments source name ∧
            ∃ place, ((declarationRoot o).after w).tree.resolve dir = .ok place ∧
              c.place = some place) ∧
        ∀ root, (declarationRoot o).result w = .ok root →
          root = o.declarations.getD (dir.push name) := by
  obtain ⟨hfile, hcolon⟩ := isFileName_of_projectName? hname
  refine ⟨⟨hfile.2.1, hfile.2.2.1, hfile.2.2.2, hfile.1, hcolon⟩, Path.isChild_push hfile dir, ?_⟩
  rintro o w rfl rfl houtside
  obtain ⟨-, hcommands⟩ := startsGit_declarationRoot houtside w
  exact ⟨hcommands, declarationRoot_gives houtside w⟩

namespace DetachedServerWitness

def address : String := "ssh://git@host:10022/rpc/user_service.git"

def options : RpcOptions where
  source := address
  project := "user_service"
  client := none
  serverCode := false
  needImplementation := false
  outside := some ⟨"/srv/all"⟩
  declarations := none
  skipVersionControl := false
  skipCompiler := true

def empty : Workspace := ⟨⟨[]⟩, ["git"], [], []⟩

theorem user_service_is_direct_child :
    projectName? address = some "user_service" ∧
    (⟨"/srv/all"⟩ : Path).IsChild "user_service" ⟨"/srv/all/user_service"⟩ ∧
    ((declarationRoot options).after empty).started =
      [["init"], ["submodule", "add", address, "user_service"],
        ["submodule", "update", "--init", "--remote", "--recursive", "--", "user_service"]].map
          (⟨some ["srv", "all"], "git", ·⟩) ∧
    (∀ c ∈ ((declarationRoot options).after empty).started,
      c.arguments ∈ submoduleArguments address "user_service") ∧
    (declarationRoot options).result empty = .ok ⟨"/srv/all/user_service"⟩ := by
  have hname : projectName? address = some "user_service" := by decide +kernel
  obtain ⟨-, hchild, hrun⟩ := source_project_is_direct_child hname ⟨"/srv/all"⟩
  obtain ⟨⟨commands, hstarted, hcommands⟩, hroot⟩ := hrun options empty rfl rfl rfl
  have hsome : ((declarationRoot options).result empty).toOption.isSome := by decide +kernel
  refine ⟨hname, hchild, by decide +kernel, ?_, ?_⟩
  · rw [hstarted]
    exact fun c hc => (hcommands c hc).2.1
  · obtain ⟨root, hresult⟩ := Fallible.exists_ok_of_isSome hsome
    rw [hresult, hroot root hresult]
    rfl

end DetachedServerWitness

end RpcRun

end ServiceGen

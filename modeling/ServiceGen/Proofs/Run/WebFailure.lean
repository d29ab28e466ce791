import ServiceGen.Proofs.Files.Effects
import ServiceGen.Run.Web

/-!
What a generation of web modules leaves behind when it fails because of what it is to generate.  All
texts are made before any of them is written, but some directories have been made packages by then:
nothing is changed exactly when they all were packages before.
-/

namespace ServiceGen

namespace Failure

/-- The failure is due to what is to be generated. -/
def isInput : Failure → Bool
  | nestedGetParameter .. | enumClash _ | unnamedEnum _ => true
  | _ => false

end Failure

namespace Job

variable {α β : Type} {w : Workspace}

theorem lift_ok (a : α) : (liftM (Except.ok a : Except Failure α) : Job α) = pure a := rfl

theorem lift_pure (a : α) : (liftM (pure a : Except Failure α) : Job α) = pure a := rfl

theorem lift_bind (x : Except Failure α) (f : α → Except Failure β) :
    (liftM (x >>= f) : Job β) = ((liftM x : Job α) >>= fun a => (liftM (f a) : Job β)) := by
  cases x <;> rfl

theorem forM_append (f : α → Job Unit) (as bs : List α) :
    (as ++ bs).forM f = (as.forM f >>= fun _ => bs.forM f) := by
  induction as with
  | nil => rfl
  | cons a as ih =>
      change (f a >>= fun _ => (as ++ bs).forM f) = ((f a >>= fun _ => as.forM f) >>= _)
      rw [ih, bind_assoc]

theorem forM_flatMap (f : β → Job Unit) (g : α → List β) (as : List α) :
    (as.flatMap g).forM f = as.forM fun a => (g a).forM f := by
  induction as with
  | nil => rfl
  | cons a as ih =>
      rw [List.flatMap_cons, forM_append, ih]
      rfl

/-- What is made a package is one after that. -/
theorem exists_of_forM_ensurePackage {dirs : List Path}
    (h : (dirs.forM ensurePackage).result w = .ok ()) :
    ∀ dir ∈ dirs,
      ((dirs.forM ensurePackage).after w).tree.exists? (dir.push packageFile) = true := by
  induction dirs generalizing w with
  | nil => exact nofun
  | cons dir rest ih =>
      have hcons : (dir :: rest).forM ensurePackage =
        (ensurePackage dir >>= fun _ => rest.forM ensurePackage) := rfl
      rw [hcons, result_bind_eq_ok] at h
      obtain ⟨⟨⟩, hdir, hrest⟩ := h
      rw [hcons, after_bind_of_ok hdir, List.forall_mem_cons]
      have hkept : (rest.forM ensurePackage).Writes (fun _ => True) (fun _ => False) :=
        writes_forM fun _ _ => writes_ensurePackage trivial
      exact ⟨(hkept.grows _).exists? (exists_of_ensurePackage hdir), ih hrest⟩

theorem forM_ensurePackage_of_exists {dirs : List Path}
    (h : ∀ dir ∈ dirs, w.tree.exists? (dir.push packageFile) = true) :
    (dirs.forM ensurePackage).result w = .ok () ∧ (dirs.forM ensurePackage).after w = w := by
  induction dirs with
  | nil => exact ⟨rfl, rfl⟩
  | cons dir rest ih =>
      have hcons : (dir :: rest).forM ensurePackage =
        (ensurePackage dir >>= fun _ => rest.forM ensurePackage) := rfl
      rw [List.forall_mem_cons] at h
      obtain ⟨hresult, hafter⟩ := ensurePackage_of_exists h.1
      rw [hcons, result_bind_of_ok hresult, after_bind_of_ok hresult, hafter]
      exact ih h.2

end Job

namespace WebRun

open Job

variable {output : Path} {stubs : StubOptions} {services : List Service}

/-- The directories along some parts. -/
def below (dir : Path) : List String → List Path
  | [] => []
  | part :: parts => dir.push part :: below (dir.push part) parts

/-- The directories between the output and a file. -/
def packagesOf (output : Path) (f : GeneratedFile) : List Path :=
  below output (((f.path.parent?.map Path.components).getD []).map Component.text)

/-- The directories between the output and the files of those services that come before the first
one that cannot be generated. -/
def packagesBefore (output : Path) (stubs : StubOptions) : List Service → List Path
  | [] => []
  | s :: rest =>
      match WebResource.files stubs s with
      | .ok files => files.flatMap (packagesOf output) ++ packagesBefore output stubs rest
      | .error _ => []

theorem ensurePackages_eq (output : Path) (f : GeneratedFile) :
    ensurePackages output f = (packagesOf output f).forM ensurePackage := by
  rw [ensurePackages, packagesOf]
  generalize ((f.path.parent?.map Path.components).getD []).map Component.text = parts
  induction parts generalizing output with
  | nil => rfl
  | cons part parts ih =>
      have hcons : (below output (part :: parts)).forM ensurePackage =
        (ensurePackage (output.push part) >>= fun _ =>
          (below (output.push part) parts).forM ensurePackage) := rfl
      rw [hcons, ← ih, List.foldlM_cons]
      simp only [discard, Functor.discard, bind_assoc, pure_bind, map_const, Function.comp_apply,
        map_bind]

theorem serviceFiles_eq (output : Path) (stubs : StubOptions) (services : List Service) :
    serviceFiles output stubs services =
      ((packagesBefore output stubs services).forM ensurePackage >>= fun _ =>
        (liftM (services.mapM (WebResource.files stubs)) : Job _) >>= fun files =>
          pure files.flatten) := by
  have hfiles : ∀ services : List Service, (services.mapM fun s => do
        let files ← (WebResource.files stubs s : Except _ _)
        files.forM (ensurePackages output)
        return files : Job _) =
      ((packagesBefore output stubs services).forM ensurePackage >>= fun _ =>
        (liftM (services.mapM (WebResource.files stubs)) : Job _)) := by
    intro services
    induction services with
    | nil => rfl
    | cons s rest ih =>
        rw [List.mapM_cons, ih, List.mapM_cons, packagesBefore]
        cases hs : WebResource.files stubs s with
        | error e => rfl
        | ok files =>
            have hpackages : files.forM (ensurePackages output) =
                (files.flatMap (packagesOf output)).forM ensurePackage := by
              rw [forM_flatMap]
              exact congrArg _ (funext fun f => ensurePackages_eq output f)
            simp only [lift_bind, lift_ok, lift_pure, pure_bind, bind_assoc, hpackages, forM_append]
  rw [serviceFiles, hfiles, bind_assoc]

/-- All texts of the modules of services and enumerations. -/
def texts (web : WebSettings) (services : List Service) (scanned : EnumSet) :
    Except Failure (List GeneratedFile × EnumResource.Modules) := do
  let stubs : StubOptions :=
    { fromProject := "", runtimePath := web.runtimePath, apiPath := web.apiPath }
  let files ← services.mapM (WebResource.files stubs)
  let enums ← EnumSet.collect services scanned
  let enumModules ← EnumResource.modules web.apiPath enums.enums
  return (files.flatten ++ [⟨⟨"api_reg.py"⟩, WebResource.registryModule services⟩,
    ⟨⟨"ss_enum.py"⟩, enumModules.resources⟩], enumModules)

def writeTexts (output enumHolders : Path) (texts : List GeneratedFile × EnumResource.Modules) :
    Job (List Path) := do
  let written ← writeFiles output texts.1
  Job.writeFile enumHolders texts.2.holders
  return written ++ [enumHolders]

/-- The directories that are made packages before the texts are written. -/
def packages (web : WebSettings) (output : Path) (services : List Service) : List Path :=
  output :: packagesBefore output
    { fromProject := "", runtimePath := web.runtimePath, apiPath := web.apiPath } services

/-- A generation makes the packages, then all texts, and then writes these. -/
theorem modules_eq (web : WebSettings) (output enumHolders : Path) (services : List Service)
    (scanned : EnumSet) :
    modules web output enumHolders services scanned =
      ((packages web output services).forM ensurePackage >>= fun _ =>
        (liftM (texts web services scanned) : Job _) >>= writeTexts output enumHolders) := by
  have hcons : ∀ dir rest, (dir :: rest : List Path).forM ensurePackage =
    (ensurePackage dir >>= fun _ => rest.forM ensurePackage) := fun _ _ => rfl
  simp only [modules, packages, hcons, texts, serviceFiles_eq, writeTexts, lift_bind, lift_pure,
    bind_assoc, pure_bind]

theorem not_isInput_unwritable (p : Path) (e : FileError) :
    (Failure.unwritable p e).isInput = false := rfl

/-- Making packages and writing fails for other reasons. -/
theorem texts_of_input_failure {web : WebSettings} {output enumHolders : Path}
    {services : List Service} {scanned : EnumSet} {w : Workspace} {e : Failure}
    (hrun : (modules web output enumHolders services scanned).result w = .error e)
    (he : e.isInput = true) :
    ((packages web output services).forM ensurePackage).result w = .ok () ∧
      texts web services scanned = .error e := by
  have hpackages : ((packages web output services).forM ensurePackage).FailsWith
      (·.isInput = false) :=
    failsWith_forM fun _ => failsWith_ensurePackage not_isInput_unwritable
  have hwrite : ∀ texts, (writeTexts output enumHolders texts).FailsWith (·.isInput = false) := by
    intro texts
    refine failsWith_bind (failsWith_mapM fun f => ?_) fun written => ?_
    · exact failsWith_bind (failsWith_writeFile not_isInput_unwritable _) fun _ =>
        failsWith_pure _
    · exact failsWith_bind (failsWith_writeFile not_isInput_unwritable _) fun _ =>
        failsWith_pure _
  rw [modules_eq, result_bind_eq_error] at hrun
  rcases hrun with hrun | ⟨⟨⟩, hmade, hrun⟩
  · cases he.symm.trans (hpackages w e hrun)
  · rcases result_bind_eq_error.mp hrun with hrun | ⟨generated, -, hrun⟩
    · exact ⟨hmade, hrun⟩
    · cases he.symm.trans (hwrite generated _ e hrun)

/-- A generation that fails because of its input has written no text, and all that was there is as
it was; but the directories of the services before the failure have become packages, and the output
with them.  The files are as they were exactly when all of these were packages before. -/
theorem input_failure_unchanged_iff {web : WebSettings} {output enumHolders : Path}
    {services : List Service} {scanned : EnumSet} {w : Workspace} {e : Failure}
    (hrun : (modules web output enumHolders services scanned).result w = .error e)
    (he : e.isInput = true) :
    let left := ((modules web output enumHolders services scanned).after w).tree
    (left = w.tree ↔
      ∀ dir ∈ packages web output services, w.tree.exists? (dir.push packageFile) = true) ∧
    (∀ place, (w.tree.get? place).isSome → left.get? place = w.tree.get? place) ∧
    (∀ place, left.file? place ≠ w.tree.file? place →
      ∃ dir ∈ packages web output services, left.resolve (dir.push packageFile) = .ok place) := by
  intro left
  obtain ⟨hmade, htexts⟩ := texts_of_input_failure hrun he
  have hleft : left = (((packages web output services).forM ensurePackage).after w).tree := by
    have hfailed : ((liftM (texts web services scanned) : Job _) >>=
        writeTexts output enumHolders).after
          (((packages web output services).forM ensurePackage).after w) =
        ((packages web output services).forM ensurePackage).after w :=
      after_bind_of_error htexts
    simp only [left, modules_eq, after_bind_of_ok hmade, hfailed]
  have hwrites : ((packages web output services).forM ensurePackage).Writes
      (fun p => ∃ dir ∈ packages web output services, p = dir.push packageFile)
      (fun _ => False) :=
    writes_forM fun dir hdir => writes_ensurePackage ⟨dir, hdir, rfl⟩
  obtain ⟨created, written, htraces⟩ := hwrites w
  rw [← hleft] at htraces
  refine ⟨⟨fun hsame dir hdir => ?_, fun hexists => ?_⟩, fun place hplace => ?_,
    fun place hchanged => ?_⟩
  · rw [← hsame, hleft]
    exact exists_of_forM_ensurePackage hmade dir hdir
  · rw [hleft, (forM_ensurePackage_of_exists hexists).2]
  · refine htraces.changes.get?_eq hplace fun hwritten => ?_
    obtain ⟨entry, hentry, -⟩ := List.mem_map.mp hwritten
    obtain ⟨p, hp, -⟩ := htraces.written_path entry hentry
    exact hp
  · by_contra hnone
    refine hchanged (htraces.file?_eq fun p hp hresolve => ?_)
    rcases hp with ⟨dir, hdir, rfl⟩ | hp
    · exact hnone ⟨dir, hdir, hresolve⟩
    · exact hp

end WebRun

namespace WebFailureWitness

open WebRun DataType

/-- A service that is asked for an object in the address. -/
def nested : Service :=
  ⟨"Demo", ⟨"app.define.api.demo", "Demo"⟩, [{ Operation.named "get" with
    arguments := [.ofType "filter" (dict ⟨[("id", scalar .int)]⟩)] }], none, none⟩

def generation : Job (List Path) :=
  modules Settings.standard.web ⟨"api"⟩ ⟨"enum.py"⟩ [nested] .empty

/-- The output is no package yet. -/
def fresh : Workspace := { tree := .empty, programs := [], exits := [], started := [] }

/-- The output is a package already. -/
def prepared : Workspace :=
  { fresh with tree := ⟨[(["api"], .directory), (["api", "__init__.py"], .file (.text ""))]⟩ }

/-- The failure of the generation, if it is due to the input. -/
def inputFailure? (w : Workspace) : Option Failure :=
  match generation.result w with
  | .error e => if e.isInput then some e else none
  | .ok _ => none

theorem exists_of_isSome {w : Workspace} (h : (inputFailure? w).isSome = true) :
    ∃ e, generation.result w = .error e ∧ e.isInput = true := by
  unfold inputFailure? at h
  split at h
  · split at h
    · exact ⟨_, ‹_›, ‹_›⟩
    · cases h
  · cases h

/-- An output that is a package already is left as it was. -/
theorem prepared_unchanged :
    (∃ e, generation.result prepared = .error e ∧ e.isInput = true) ∧
      (generation.after prepared).tree = prepared.tree := by
  obtain ⟨e, hrun, he⟩ := exists_of_isSome (w := prepared) (by decide +kernel)
  have hpackages : packages Settings.standard.web ⟨"api"⟩ [nested] = [⟨"api"⟩] := by decide +kernel
  refine ⟨⟨e, hrun, he⟩, (input_failure_unchanged_iff hrun he).1.mpr fun dir hdir => ?_⟩
  rw [hpackages] at hdir
  obtain rfl := List.mem_singleton.mp hdir
  decide +kernel

/-- Where nothing was, the output is left behind as a package. -/
theorem not_all_input_failures_unchanged :
    ¬ ∀ (web : WebSettings) (output enumHolders : Path) (services : List Service)
        (scanned : EnumSet) (w : Workspace) (e : Failure),
      (modules web output enumHolders services scanned).result w = .error e → e.isInput = true →
        ((modules web output enumHolders services scanned).after w).tree = w.tree := by
  intro hall
  obtain ⟨e, hrun, he⟩ := exists_of_isSome (w := fresh) (by decide +kernel)
  have hsame := hall Settings.standard.web ⟨"api"⟩ ⟨"enum.py"⟩ [nested] .empty fresh e hrun he
  revert hsame
  decide +kernel

end WebFailureWitness

end ServiceGen

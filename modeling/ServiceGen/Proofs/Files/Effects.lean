import ServiceGen.Proofs.Files.Job
import ServiceGen.Proofs.Files.Operations

/-!
Which files a job creates and writes, and what becomes of a job that is done again.  Both are found
out piece by piece: a sequence of jobs creates and writes what its members do, and when each member
repeats itself on all trees that have grown from the one it has left, so does the sequence.
-/

namespace ServiceGen

namespace FileTree

/-- The tree becomes another one, and the paths to the files that are created and to those that are
written are among the given ones. -/
structure Traces (mayCreate mayWrite : Path → Prop) (created : List (List String))
    (written : List (List String × Content)) (t t' : FileTree) : Prop where
  changes : t.Changes created written t'
  created_path : ∀ place ∈ created, ∃ p, mayCreate p ∧ t'.resolve p = .ok place
  written_path : ∀ w ∈ written, ∃ p, mayWrite p ∧ t'.resolve p = .ok w.1

namespace Traces

variable {mayCreate mayWrite : Path → Prop} {created created' : List (List String)}
  {written written' : List (List String × Content)} {t t' t'' : FileTree} {place : List String}

theorem refl (t : FileTree) : Traces mayCreate mayWrite [] [] t t :=
  ⟨.refl, nofun, nofun⟩

theorem directories (h : t.Changes [] [] t') : Traces mayCreate mayWrite [] [] t t' :=
  ⟨h, nofun, nofun⟩

theorem trans (h : Traces mayCreate mayWrite created written t t')
    (h' : Traces mayCreate mayWrite created' written' t' t'') :
    Traces mayCreate mayWrite (created ++ created') (written ++ written') t t'' := by
  refine ⟨h.changes.trans h'.changes, fun place hplace => ?_, fun w hw => ?_⟩
  · rcases List.mem_append.mp hplace with hplace | hplace
    · obtain ⟨p, hp, hresolve⟩ := h.created_path place hplace
      exact ⟨p, hp, h'.changes.grows.resolve hresolve⟩
    · exact h'.created_path place hplace
  · rcases List.mem_append.mp hw with hw | hw
    · obtain ⟨p, hp, hresolve⟩ := h.written_path w hw
      exact ⟨p, hp, h'.changes.grows.resolve hresolve⟩
    · exact h'.written_path w hw

theorem mono {mayCreate' mayWrite' : Path → Prop}
    (h : Traces mayCreate mayWrite created written t t') (hcreate : ∀ p, mayCreate p → mayCreate' p)
    (hwrite : ∀ p, mayWrite p → mayWrite' p) :
    Traces mayCreate' mayWrite' created written t t' := by
  refine ⟨h.changes, fun place hplace => ?_, fun w hw => ?_⟩
  · obtain ⟨p, hp, hresolve⟩ := h.created_path place hplace
    exact ⟨p, hcreate p hp, hresolve⟩
  · obtain ⟨p, hp, hresolve⟩ := h.written_path w hw
    exact ⟨p, hwrite p hp, hresolve⟩

/-- Only the files that the given paths lead to are touched. -/
theorem file?_eq (h : Traces mayCreate mayWrite created written t t')
    (hplace : ∀ p, mayCreate p ∨ mayWrite p → t'.resolve p ≠ .ok place) :
    t'.file? place = t.file? place := by
  refine h.changes.file?_eq (fun hcreated => ?_) (fun hwritten => ?_)
  · obtain ⟨p, hp, hresolve⟩ := h.created_path place hcreated
    exact hplace p (.inl hp) hresolve
  · obtain ⟨w, hw, rfl⟩ := List.mem_map.mp hwritten
    obtain ⟨p, hp, hresolve⟩ := h.written_path w hw
    exact hplace p (.inr hp) hresolve

/-- A file that no writable path leads to, in the tree or in what it grows into, is not written. -/
theorem notMem_written (h : Traces mayCreate mayWrite created written t t')
    (hgrows : t'.Extends t'') (hplace : ∀ p, mayWrite p → t''.resolve p ≠ .ok place) :
    place ∉ written.map (·.1) := by
  intro hmem
  obtain ⟨w, hw, rfl⟩ := List.mem_map.mp hmem
  obtain ⟨p, hp, hresolve⟩ := h.written_path w hw
  exact hplace p hp (hgrows.resolve hresolve)

end Traces

end FileTree

namespace Job

open FileTree

variable {α β : Type} {mayCreate mayWrite : Path → Prop}

/-- Whether the job succeeds or not, it only creates and writes the given files. -/
def Writes (mayCreate mayWrite : Path → Prop) (x : Job α) : Prop :=
  ∀ w, ∃ created written,
    FileTree.Traces mayCreate mayWrite created written w.tree (x.after w).tree

section Writes

theorem Writes.of_tree {x : Job α} (h : ∀ w, (x.after w).tree = w.tree) :
    x.Writes mayCreate mayWrite := by
  intro w
  rw [h w]
  exact ⟨[], [], .refl w.tree⟩

theorem writes_pure (a : α) : (pure a : Job α).Writes mayCreate mayWrite :=
  .of_tree fun _ => rfl

theorem writes_bind {x : Job α} {f : α → Job β} (hx : x.Writes mayCreate mayWrite)
    (hf : ∀ a, (f a).Writes mayCreate mayWrite) : (x >>= f).Writes mayCreate mayWrite := by
  intro w
  obtain ⟨created, written, htraces⟩ := hx w
  cases hresult : x.result w with
  | error e =>
      rw [after_bind_of_error hresult]
      exact ⟨created, written, htraces⟩
  | ok a =>
      obtain ⟨created', written', htraces'⟩ := hf a (x.after w)
      rw [after_bind_of_ok hresult]
      exact ⟨_, _, htraces.trans htraces'⟩

theorem writes_mapM {f : α → Job β} {as : List α}
    (h : ∀ a ∈ as, (f a).Writes mayCreate mayWrite) : (as.mapM f).Writes mayCreate mayWrite := by
  induction as with
  | nil => exact writes_pure []
  | cons a rest ih =>
      rw [List.forall_mem_cons] at h
      rw [List.mapM_cons]
      exact writes_bind h.1 fun b => writes_bind (ih h.2) fun bs => writes_pure (b :: bs)

theorem writes_forM {f : α → Job Unit} {as : List α}
    (h : ∀ a ∈ as, (f a).Writes mayCreate mayWrite) : (as.forM f).Writes mayCreate mayWrite := by
  induction as with
  | nil => exact writes_pure ()
  | cons a rest ih =>
      rw [List.forall_mem_cons] at h
      exact writes_bind h.1 fun _ => ih h.2

theorem Writes.grows {x : Job α} (h : x.Writes mayCreate mayWrite) (w : Workspace) :
    w.tree.Extends (x.after w).tree := by
  obtain ⟨created, written, htraces⟩ := h w
  exact htraces.changes.grows

theorem after_tryCatch (x : Job α) (handler : Failure → Job α) (w : Workspace) :
    (tryCatch x handler).after w = match x.result w with
      | .ok _ => x.after w
      | .error e => (handler e).after (x.after w) := by
  simp only [result, after, ExceptT.run_tryCatch, StateT.run_bind]
  cases (ExceptT.run x).run w with
  | mk r v => cases r <;> rfl

theorem writes_tryCatch {x : Job α} {handler : Failure → Job α}
    (hx : x.Writes mayCreate mayWrite) (hhandler : ∀ e, (handler e).Writes mayCreate mayWrite) :
    (tryCatch x handler).Writes mayCreate mayWrite := by
  intro w
  obtain ⟨created, written, htraces⟩ := hx w
  rw [after_tryCatch]
  cases x.result w with
  | ok a => exact ⟨created, written, htraces⟩
  | error e =>
      obtain ⟨created', written', htraces'⟩ := hhandler e (x.after w)
      exact ⟨_, _, htraces.trans htraces'⟩

end Writes

/-- When the job has succeeded, it does the same on every tree that the one it has left has grown
into: it gives the same and writes the same files, and creates no more. -/
def Repeats (mayCreate mayWrite : Path → Prop) (x : Job α) : Prop :=
  ∀ w a, x.result w = .ok a → ∃ created written,
    FileTree.Traces mayCreate mayWrite created written w.tree (x.after w).tree ∧
      ∀ w', (x.after w).tree.Extends w'.tree →
        x.result w' = .ok a ∧ x.after w' = { w' with tree := w'.tree.rewrite written }

section Repeats

theorem Repeats.mono {mayCreate' mayWrite' : Path → Prop} {x : Job α}
    (h : x.Repeats mayCreate mayWrite) (hcreate : ∀ p, mayCreate p → mayCreate' p)
    (hwrite : ∀ p, mayWrite p → mayWrite' p) : x.Repeats mayCreate' mayWrite' := by
  intro w a ha
  obtain ⟨created, written, htraces, hagain⟩ := h w a ha
  exact ⟨created, written, htraces.mono hcreate hwrite, hagain⟩

theorem repeats_pure (a : α) : (pure a : Job α).Repeats mayCreate mayWrite := by
  intro w b hb
  obtain rfl : a = b := Except.ok.inj hb
  exact ⟨[], [], .refl w.tree, fun w' _ => ⟨rfl, rfl⟩⟩

theorem repeats_bind {x : Job α} {f : α → Job β} (hx : x.Repeats mayCreate mayWrite)
    (hf : ∀ a, (f a).Repeats mayCreate mayWrite) : (x >>= f).Repeats mayCreate mayWrite := by
  intro w b hb
  obtain ⟨a, ha, hb⟩ := result_bind_eq_ok.mp hb
  obtain ⟨created, written, htraces, hagain⟩ := hx w a ha
  obtain ⟨created', written', htraces', hagain'⟩ := hf a (x.after w) b hb
  rw [after_bind_of_ok ha]
  refine ⟨_, _, htraces.trans htraces', fun w' hw' => ?_⟩
  obtain ⟨hresult, hafter⟩ := hagain w' (htraces'.changes.grows.trans hw')
  have hfiles := htraces.changes.hasFiles.extends (htraces'.changes.grows.trans hw')
  obtain ⟨hresult', hafter'⟩ :=
    hagain' { w' with tree := w'.tree.rewrite written } (hw'.trans hfiles.extends_rewrite)
  rw [result_bind_of_ok hresult, after_bind_of_ok hresult, hafter, hresult', hafter',
    rewrite_append]
  exact ⟨rfl, rfl⟩

theorem repeats_mapM {f : α → Job β} {as : List α}
    (h : ∀ a ∈ as, (f a).Repeats mayCreate mayWrite) :
    (as.mapM f).Repeats mayCreate mayWrite := by
  induction as with
  | nil => exact repeats_pure []
  | cons a rest ih =>
      rw [List.forall_mem_cons] at h
      rw [List.mapM_cons]
      exact repeats_bind h.1 fun b => repeats_bind (ih h.2) fun bs => repeats_pure (b :: bs)

theorem repeats_forM {f : α → Job Unit} {as : List α}
    (h : ∀ a ∈ as, (f a).Repeats mayCreate mayWrite) : (as.forM f).Repeats mayCreate mayWrite := by
  induction as with
  | nil => exact repeats_pure ()
  | cons a rest ih =>
      rw [List.forall_mem_cons] at h
      exact repeats_bind h.1 fun _ => ih h.2

end Repeats

section Change

variable (path : Path) (f : FileTree → Except FileError FileTree) (w : Workspace)

theorem result_change : (change path f).result w = match f w.tree with
    | .ok _ => .ok ()
    | .error e => .error (.unwritable path e) := by
  have hrun : (change path f).result w = (match f w.tree with
    | .ok t => modify ({ · with tree := t })
    | .error e => throw (.unwritable path e) : Job Unit).result w := rfl
  rw [hrun]
  cases f w.tree <;> rfl

theorem after_change : (change path f).after w = match f w.tree with
    | .ok t => { w with tree := t }
    | .error _ => w := by
  have hrun : (change path f).after w = (match f w.tree with
    | .ok t => modify ({ · with tree := t })
    | .error e => throw (.unwritable path e) : Job Unit).after w := rfl
  rw [hrun]
  cases f w.tree <;> rfl

variable {path f w}

theorem change_eq_ok (h : (change path f).result w = .ok ()) :
    ∃ t, f w.tree = .ok t ∧ (change path f).after w = { w with tree := t } := by
  rw [result_change] at h
  rw [after_change]
  cases hf : f w.tree with
  | ok t => exact ⟨t, rfl, rfl⟩
  | error e => simp [hf] at h

theorem change_of_eq_ok {t : FileTree} (h : f w.tree = .ok t) :
    (change path f).result w = .ok () ∧ (change path f).after w = { w with tree := t } := by
  rw [result_change, after_change, h]
  exact ⟨rfl, rfl⟩

/-- A change that is refused leaves everything as it is. -/
theorem writes_change (h : ∀ t t', f t = .ok t' → ∃ created written,
    FileTree.Traces mayCreate mayWrite created written t t') :
    (change path f).Writes mayCreate mayWrite := by
  intro w
  rw [after_change]
  cases hf : f w.tree with
  | ok t => exact h w.tree t hf
  | error e => exact ⟨[], [], .refl w.tree⟩

theorem repeats_change (h : ∀ t t', f t = .ok t' → ∃ created written,
    FileTree.Traces mayCreate mayWrite created written t t' ∧
      ∀ u, t'.Extends u → f u = .ok (u.rewrite written)) :
    (change path f).Repeats mayCreate mayWrite := by
  intro w a hresult
  obtain ⟨t, ht, hafter⟩ := change_eq_ok hresult
  obtain ⟨created, written, htraces, hagain⟩ := h w.tree t ht
  rw [hafter]
  exact ⟨created, written, htraces, fun w' hw' => change_of_eq_ok (hagain w'.tree hw')⟩

end Change

section Primitives

variable {p dir : Path} {w : Workspace}

theorem writes_makeDirectories (p : Path) : (makeDirectories p).Writes mayCreate mayWrite :=
  writes_change fun _ _ h => ⟨[], [], .directories (ensureDirectories_eq_ok h).1⟩

theorem repeats_makeDirectories (p : Path) : (makeDirectories p).Repeats mayCreate mayWrite :=
  repeats_change fun _ _ h => by
    obtain ⟨hchanges, hdirectory⟩ := ensureDirectories_eq_ok h
    exact ⟨[], [], .directories hchanges, fun u hu =>
      ensureDirectories_of_isDirectory (fun hne => hu.isDirectory (hdirectory hne)) _⟩

theorem write_again {t t' : FileTree} {content : Content} (hp : mayWrite p)
    (h : t.write p content = .ok t') : ∃ created written,
      FileTree.Traces mayCreate mayWrite created written t t' ∧
        ∀ u, t'.Extends u → u.write p content = .ok (u.rewrite written) := by
  obtain ⟨q, hchanges, hq⟩ := write_changes h
  refine ⟨[], [(q, content)], ⟨hchanges, nofun, ?_⟩, fun u hu => ?_⟩
  · intro w hw
    obtain rfl := List.mem_singleton.mp hw
    exact ⟨p, hp, hq⟩
  · obtain ⟨old, hold⟩ := (hchanges.hasFiles.extends hu) (q, content) List.mem_cons_self
    exact write_of_file (hu.resolve hq) hold content

theorem writes_writeFile (hp : mayWrite p) (text : String) :
    (writeFile p text).Writes mayCreate mayWrite := by
  have hwrite : (change p (·.write p (.text text))).Writes mayCreate mayWrite :=
    writes_change fun _ _ h => by
      obtain ⟨created, written, htraces, -⟩ := write_again hp h
      exact ⟨created, written, htraces⟩
  unfold writeFile
  cases p.parent? with
  | none => exact hwrite
  | some around => exact writes_bind (writes_makeDirectories around) fun _ => hwrite

theorem repeats_writeFile (hp : mayWrite p) (text : String) :
    (writeFile p text).Repeats mayCreate mayWrite := by
  have hwrite : (change p (·.write p (.text text))).Repeats mayCreate mayWrite :=
    repeats_change fun _ _ h => write_again hp h
  unfold writeFile
  cases p.parent? with
  | none => exact hwrite
  | some around => exact repeats_bind (repeats_makeDirectories around) fun _ => hwrite

theorem isFileName_packageFile : Path.IsFileName packageFile := by
  simp [Path.IsFileName, packageFile]

/-- Creates an empty file where there is none. -/
def ensureFile (file : Path) : Job Unit := do
  unless (← tree).exists? file do
    change file (·.write file (.text ""))

theorem ensurePackage_eq (dir : Path) :
    ensurePackage dir = (makeDirectories dir >>= fun _ => ensureFile (dir.push packageFile)) := rfl

variable {file : Path}

theorem ensureFile_eq (file : Path) (w : Workspace) :
    (ensureFile file).result w = (if w.tree.exists? file = true then .ok ()
      else (change file (·.write file (.text ""))).result w) ∧
    (ensureFile file).after w = (if w.tree.exists? file = true then w
      else (change file (·.write file (.text ""))).after w) := by
  unfold ensureFile
  rw [result_tree_bind, after_tree_bind]
  by_cases hexists : w.tree.exists? file = true
  · simp only [hexists, if_true]
    exact ⟨rfl, rfl⟩
  · simp only [hexists]
    exact ⟨rfl, rfl⟩

theorem ensureFile_of_exists (h : w.tree.exists? file = true) :
    (ensureFile file).result w = .ok () ∧ (ensureFile file).after w = w := by
  rw [(ensureFile_eq file w).1, (ensureFile_eq file w).2, if_pos h, if_pos h]
  exact ⟨rfl, rfl⟩

theorem exists_of_ensureFile (h : (ensureFile file).result w = .ok ()) :
    ((ensureFile file).after w).tree.exists? file = true := by
  rw [(ensureFile_eq file w).1] at h
  rw [(ensureFile_eq file w).2]
  split at h
  · rw [if_pos ‹_›]
    assumption
  · rw [if_neg ‹_›]
    obtain ⟨t, ht, hafter⟩ := change_eq_ok h
    obtain ⟨q, -, hq, -⟩ := write_eq_ok ht
    rw [hafter]
    exact exists?_iff.mpr ⟨q, hq⟩

theorem traces_ensureFile (hfile : mayCreate file) (w : Workspace) :
    ∃ created, FileTree.Traces mayCreate mayWrite created [] w.tree
      ((ensureFile file).after w).tree := by
  rw [(ensureFile_eq file w).2]
  split
  · exact ⟨[], .refl w.tree⟩
  · rename_i hnew
    rw [after_change]
    cases hwrite : w.tree.write file (.text "") with
    | error e => exact ⟨[], .refl w.tree⟩
    | ok t =>
        obtain ⟨q, hchanges, hq⟩ := write_creates hnew hwrite
        refine ⟨[q], hchanges, ?_, nofun⟩
        intro place hplace
        obtain rfl := List.mem_singleton.mp hplace
        exact ⟨file, hfile, hq⟩

theorem writes_ensureFile (hfile : mayCreate file) :
    (ensureFile file).Writes mayCreate mayWrite := fun w =>
  let ⟨created, htraces⟩ := traces_ensureFile hfile w
  ⟨created, [], htraces⟩

theorem repeats_ensureFile (hfile : mayCreate file) :
    (ensureFile file).Repeats mayCreate mayWrite := by
  intro w a hresult
  obtain ⟨created, htraces⟩ := traces_ensureFile hfile w
  exact ⟨created, [], htraces, fun w' hw' =>
    ensureFile_of_exists (hw'.exists? (exists_of_ensureFile hresult))⟩

theorem writes_ensurePackage (hfile : mayCreate (dir.push packageFile)) :
    (ensurePackage dir).Writes mayCreate mayWrite := by
  rw [ensurePackage_eq]
  exact writes_bind (writes_makeDirectories dir) fun _ => writes_ensureFile hfile

theorem repeats_ensurePackage (hfile : mayCreate (dir.push packageFile)) :
    (ensurePackage dir).Repeats mayCreate mayWrite := by
  rw [ensurePackage_eq]
  exact repeats_bind (repeats_makeDirectories dir) fun _ => repeats_ensureFile hfile

theorem exists_of_ensurePackage (h : (ensurePackage dir).result w = .ok ()) :
    ((ensurePackage dir).after w).tree.exists? (dir.push packageFile) = true := by
  rw [ensurePackage_eq, result_bind_eq_ok] at h
  obtain ⟨⟨⟩, hmade, h⟩ := h
  rw [ensurePackage_eq, after_bind_of_ok hmade]
  exact exists_of_ensureFile h

/-- A package is left as it is. -/
theorem ensurePackage_of_exists (h : w.tree.exists? (dir.push packageFile) = true) :
    (ensurePackage dir).result w = .ok () ∧ (ensurePackage dir).after w = w := by
  have hdirectory : dir.text ≠ "" → w.tree.isDirectory dir = true := by
    obtain ⟨q, hq⟩ := exists?_iff.mp h
    exact isDirectory_of_push isFileName_packageFile hq
  have hmade : (makeDirectories dir).result w = .ok () ∧ (makeDirectories dir).after w = w :=
    change_of_eq_ok (ensureDirectories_of_isDirectory hdirectory dir.text.length)
  rw [ensurePackage_eq, result_bind_of_ok hmade.1, after_bind_of_ok hmade.1, hmade.2]
  exact ensureFile_of_exists h

theorem failsWith_change {P : Failure → Prop} {f : FileTree → Except FileError FileTree}
    (h : ∀ p e, P (.unwritable p e)) : (change p f).FailsWith P := by
  intro w e he
  rw [result_change] at he
  cases hf : f w.tree with
  | ok t => simp [hf] at he
  | error cause =>
      rw [hf] at he
      obtain rfl := Except.error.inj he
      exact h p cause

theorem failsWith_ensurePackage {P : Failure → Prop} (h : ∀ p e, P (.unwritable p e)) :
    (ensurePackage dir).FailsWith P := by
  refine failsWith_bind (failsWith_change h) fun _ => failsWith_bind (fun w e he => ?_) fun t => ?_
  · cases he
  · cases t.exists? (dir.push packageFile)
    · exact failsWith_change h
    · exact failsWith_pure ()

theorem failsWith_writeFile {P : Failure → Prop} (h : ∀ p e, P (.unwritable p e))
    (text : String) : (writeFile p text).FailsWith P := by
  unfold writeFile
  cases p.parent? with
  | none => exact failsWith_change h
  | some around => exact failsWith_bind (failsWith_change h) fun _ => failsWith_change h

theorem readExisting_of_absent (habsent : w.tree.exists? p = false) :
    (readExisting p).result w = .ok "" ∧ (readExisting p).after w = w := by
  unfold readExisting
  rw [result_tree_bind, after_tree_bind]
  simp only [habsent]
  exact ⟨rfl, rfl⟩

theorem readExisting_of_exists (hexists : w.tree.exists? p = true) :
    (readExisting p).result w = (w.tree.read p).mapError (.unwritable p) ∧
      (readExisting p).after w = w := by
  unfold readExisting
  rw [result_tree_bind, after_tree_bind]
  simp only [hexists, Bool.not_true, Bool.false_eq_true, if_false]
  rw [result_tree_bind, after_tree_bind]
  cases w.tree.read p with
  | error e => exact ⟨rfl, rfl⟩
  | ok text => exact ⟨rfl, rfl⟩

theorem after_readExisting (p : Path) (w : Workspace) : (readExisting p).after w = w := by
  cases hexists : w.tree.exists? p with
  | false => exact (readExisting_of_absent hexists).2
  | true => exact (readExisting_of_exists hexists).2

/-- What a file holds is read; without a file, nothing is. -/
theorem readExisting_eq_ok {text : String} (h : (readExisting p).result w = .ok text) :
    text = "" ∨ ∃ q, w.tree.resolve p = .ok q ∧ w.tree.get? q = some (.file (.text text)) := by
  cases hexists : w.tree.exists? p with
  | false =>
      rw [(readExisting_of_absent hexists).1] at h
      exact .inl (Except.ok.inj h).symm
  | true =>
      rw [(readExisting_of_exists hexists).1] at h
      cases hread : w.tree.read p with
      | error e =>
          rw [hread] at h
          cases h
      | ok found =>
          rw [hread] at h
          obtain rfl := Except.ok.inj h
          exact .inr (read_eq_ok hread)

theorem readExisting_of_file {text : String} {q : List String} (hq : w.tree.resolve p = .ok q)
    (htext : w.tree.get? q = some (.file (.text text))) :
    (readExisting p).result w = .ok text := by
  rw [(readExisting_of_exists (exists?_iff.mpr ⟨q, hq⟩)).1, read_of_file hq htext]
  rfl

/-- What is written can be found. -/
theorem file_of_writeFile {text : String} (h : (writeFile p text).result w = .ok ()) :
    ∃ q, ((writeFile p text).after w).tree.resolve p = .ok q ∧
      ((writeFile p text).after w).tree.get? q = some (.file (.text text)) := by
  have hwrite : ∀ {w}, (change p (·.write p (.text text))).result w = .ok () →
      ∃ q, ((change p (·.write p (.text text))).after w).tree.resolve p = .ok q ∧
        ((change p (·.write p (.text text))).after w).tree.get? q = some (.file (.text text)) := by
    intro w h
    obtain ⟨t, ht, hafter⟩ := change_eq_ok h
    obtain ⟨q, rfl, hq, hold⟩ := write_eq_ok ht
    have hne : q ≠ [] := by
      rcases hold with habsent | ⟨-, old, hold⟩
      · exact ne_nil_of_absent habsent
      · exact place_ne_nil_of_file hold
    rw [hafter]
    exact ⟨q, hq, get?_put_self w.tree hne _⟩
  unfold writeFile at h ⊢
  cases hparent : p.parent? with
  | none =>
      rw [hparent] at h
      exact hwrite h
  | some around =>
      simp only [hparent] at h ⊢
      obtain ⟨⟨⟩, hmade, h⟩ := result_bind_eq_ok.mp h
      rw [after_bind_of_ok hmade]
      exact hwrite h

theorem read_of_writeFile {text : String} (h : (writeFile p text).result w = .ok ()) :
    ((writeFile p text).after w).tree.read p = .ok text := by
  obtain ⟨q, hq, htext⟩ := file_of_writeFile h
  exact read_of_file hq htext

/-- Two paths never lead to one file. -/
def Apart (p q : Path) : Prop :=
  ∀ (t : FileTree) (place : List String), t.resolve p = .ok place → t.resolve q ≠ .ok place

/-- Different names lead from a path to different places. -/
theorem apart_of_ne {names names' : List String} (hnames : ∀ name ∈ names, Path.IsFileName name)
    (hnames' : ∀ name ∈ names', Path.IsFileName name) (hne : names ≠ names') (p : Path) :
    Apart (names.foldl Path.push p) (names'.foldl Path.push p) := by
  intro t q h h'
  obtain ⟨place, hplace, rfl⟩ := place_of_resolve_foldl_push hnames h
  obtain ⟨place', hplace', heq⟩ := place_of_resolve_foldl_push hnames' h'
  obtain rfl := Except.ok.inj (hplace.symm.trans hplace')
  exact hne (List.append_cancel_left heq)

/-- What a path has led to is read as before when the job creates and writes files elsewhere. -/
theorem Writes.read_eq_ok {x : Job α} (hx : x.Writes mayCreate mayWrite) {text : String}
    (hread : w.tree.read p = .ok text)
    (hplace : ∀ q, mayCreate q ∨ mayWrite q → ∀ place, (x.after w).tree.resolve p = .ok place →
      (x.after w).tree.resolve q ≠ .ok place) : (x.after w).tree.read p = .ok text := by
  obtain ⟨place, hp, htext⟩ := FileTree.read_eq_ok hread
  obtain ⟨created, written, htraces⟩ := hx w
  have hp' := htraces.changes.grows.resolve hp
  have hsame := htraces.file?_eq fun q hq => hplace q hq place hp'
  rw [file?_eq_some.mpr htext] at hsame
  exact read_of_file hp' (file?_eq_some.mp hsame)

/-- A command is refused, or it runs in the place that its directory leads to. -/
theorem after_start (dir : Option Path) (program : String) (arguments : List String)
    (w : Workspace) :
    (start dir program arguments).after w = w ∨
      ∃ place, (dir.map w.tree.resolve).getD (.ok []) = .ok place ∧
        (start dir program arguments).after w =
          { w with
            exits := w.exits.drop 1
            started := w.started ++ [⟨dir.bind fun _ => some place, program, arguments⟩] } := by
  have hget : (get : Job Workspace).result w = .ok w := rfl
  unfold start
  rw [after_bind_of_ok hget]
  by_cases hnul : ((dir.map Path.hasNul).getD false ||
      (program :: arguments).any fun a => (Path.mk a).hasNul) = true
  · rw [if_pos hnul]
    exact .inl rfl
  · rw [if_neg hnul]
    dsimp only
    cases hplace : (dir.map w.tree.resolve).getD (.ok []) with
    | error e => exact .inl rfl
    | ok place =>
        cases hrefusal : refusal? w (.ok place) program with
        | some e => exact .inl rfl
        | none => exact .inr ⟨place, rfl, rfl⟩

theorem tree_after_start (dir : Option Path) (program : String) (arguments : List String)
    (w : Workspace) : ((start dir program arguments).after w).tree = w.tree := by
  rcases after_start dir program arguments w with hafter | ⟨place, -, hafter⟩ <;> rw [hafter]

end Primitives

end Job

end ServiceGen

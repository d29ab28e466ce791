import ServiceGen.Files.Workspace
import ServiceGen.Proofs.Files.Tree

/-!
What becomes of a tree when directories are made and files written.  Whatever else the tree grows
into, writing once more all that has been written brings back what the last writing of every file
has left: that is `FileTree.Changes.rewrite_eq`.
-/

namespace ServiceGen

namespace FileTree

variable {t t' t'' : FileTree} {place q : List String} {p : Path}

section Rewriting

def file? (t : FileTree) (place : List String) : Option Content :=
  match t.get? place with
  | some (.file content) => some content
  | _ => none

theorem file?_eq_some {content : Content} :
    t.file? place = some content ↔ t.get? place = some (.file content) := by
  unfold file?
  split
  · rename_i other h
    simp [h]
  · rename_i h
    exact ⟨nofun, fun heq => (h content heq).elim⟩

theorem place_ne_nil_of_file {content : Content} (h : t.get? place = some (.file content)) :
    place ≠ [] := by
  rintro rfl
  cases h

/-- The tree with contents written at places, one after the other. -/
def rewrite (t : FileTree) (written : List (List String × Content)) : FileTree :=
  written.foldl (fun t w => t.put w.1 (.file w.2)) t

/-- At the places are files. -/
def HasFiles (t : FileTree) (written : List (List String × Content)) : Prop :=
  ∀ w ∈ written, ∃ content, t.get? w.1 = some (.file content)

variable {written more : List (List String × Content)} {content : Content} {e : Entry}

theorem rewrite_cons (t : FileTree) (w : List String × Content)
    (written : List (List String × Content)) :
    t.rewrite (w :: written) = (t.put w.1 (.file w.2)).rewrite written := rfl

theorem rewrite_append (t : FileTree) (written more : List (List String × Content)) :
    t.rewrite (written ++ more) = (t.rewrite written).rewrite more :=
  List.foldl_append

theorem HasFiles.extends (h : t.HasFiles written) (hextends : t.Extends t') :
    t'.HasFiles written := by
  intro w hw
  obtain ⟨content, hcontent⟩ := h w hw
  exact hextends.file hcontent

theorem extends_put_file (hplace : place ≠ []) (hdirectory : t.get? place ≠ some .directory)
    (content : Content) : t.Extends (t.put place (.file content)) := by
  refine Extends.put hplace fun old hold => ⟨nofun, fun heq => ?_⟩
  exact absurd (heq ▸ hold) hdirectory

theorem extends_put_over {old : Content} (hold : t.get? place = some (.file old))
    (content : Content) : t.Extends (t.put place (.file content)) :=
  extends_put_file (place_ne_nil_of_file hold) (by simp [hold]) content

theorem HasFiles.extends_put {w : List String × Content} (h : t.HasFiles (w :: written)) :
    t.Extends (t.put w.1 (.file w.2)) := by
  obtain ⟨old, hold⟩ := h w List.mem_cons_self
  exact extends_put_over hold w.2

theorem HasFiles.tail {w : List String × Content} (h : t.HasFiles (w :: written)) :
    (t.put w.1 (.file w.2)).HasFiles written := by
  have hrest : t.HasFiles written := fun other hother => h other (List.mem_cons_of_mem _ hother)
  exact hrest.extends h.extends_put

theorem HasFiles.extends_rewrite (h : t.HasFiles written) : t.Extends (t.rewrite written) := by
  induction written generalizing t with
  | nil => exact Extends.refl t
  | cons w written ih => exact h.extends_put.trans (ih h.tail)

theorem get?_rewrite_of_notMem (h : t.HasFiles written) (hq : q ∉ written.map (·.1)) :
    (t.rewrite written).get? q = t.get? q := by
  induction written generalizing t with
  | nil => rfl
  | cons w written ih =>
      rw [List.map_cons, List.mem_cons, not_or] at hq
      obtain ⟨old, hold⟩ := h w List.mem_cons_self
      rw [rewrite_cons, ih h.tail hq.2, get?_put_of_ne t (place_ne_nil_of_file hold) _ hq.1]

/-- What is put somewhere else may be put before the files are written. -/
theorem rewrite_put_of_notMem (h : t.HasFiles written) (hnot : place ∉ written.map (·.1)) :
    (t.put place e).rewrite written = (t.rewrite written).put place e := by
  induction written generalizing t with
  | nil => rfl
  | cons w written ih =>
      rw [List.map_cons, List.mem_cons, not_or] at hnot
      obtain ⟨content, hcontent⟩ := h w List.mem_cons_self
      have hw := place_ne_nil_of_file hcontent
      rw [rewrite_cons, rewrite_cons, ← put_comm (Ne.symm hnot.1) hw (by simp [hcontent]),
        ih h.tail hnot.2]

/-- What was written at a place does not matter when it is written there in the end. -/
theorem put_rewrite_put (h : t.HasFiles written) (content : Content) :
    ((t.put place (.file content)).rewrite written).put place (.file content) =
      (t.rewrite written).put place (.file content) := by
  induction written generalizing t with
  | nil => exact put_put t place _ _
  | cons w written ih =>
      obtain ⟨old, hold⟩ := h w List.mem_cons_self
      have hw := place_ne_nil_of_file hold
      rw [rewrite_cons, rewrite_cons]
      by_cases heq : w.1 = place
      · rw [heq, put_put]
      · rw [← put_comm heq hw (by simp [hold]), ih h.tail]

end Rewriting

/-- The tree becomes another one by making directories where nothing is, by creating files where
nothing is, and by writing files. -/
inductive Changes (t : FileTree) :
    List (List String) → List (List String × Content) → FileTree → Prop
  | refl : Changes t [] [] t
  | directory {created written t' place} (before : Changes t created written t')
      (absent : t'.get? place = none) : Changes t created written (t'.put place .directory)
  | create {created written t' place} (content : Content) (before : Changes t created written t')
      (absent : t'.get? place = none) :
      Changes t (created ++ [place]) written (t'.put place (.file content))
  | write {created written t' place} (content : Content) (before : Changes t created written t')
      (below : place ≠ []) (free : t'.get? place ≠ some .directory) :
      Changes t created (written ++ [(place, content)]) (t'.put place (.file content))

theorem ne_nil_of_absent (h : t.get? place = none) : place ≠ [] := by
  rintro rfl
  cases h

theorem extends_put_absent (h : t.get? place = none) (e : Entry) : t.Extends (t.put place e) :=
  Extends.put (ne_nil_of_absent h) (by simp [h])

theorem file?_put_of_ne (t : FileTree) (hplace : place ≠ []) (e : Entry) (hne : q ≠ place) :
    (t.put place e).file? q = t.file? q := by
  rw [file?, file?, get?_put_of_ne t hplace e hne]

namespace Changes

variable {created created' : List (List String)} {written written' : List (List String × Content)}

theorem trans (h : t.Changes created written t') (h' : t'.Changes created' written' t'') :
    t.Changes (created ++ created') (written ++ written') t'' := by
  induction h' with
  | refl => simpa using h
  | directory _ absent ih => exact ih.directory absent
  | create content _ absent ih =>
      rw [← List.append_assoc]
      exact ih.create content absent
  | write content _ below free ih =>
      rw [← List.append_assoc]
      exact ih.write content below free

theorem grows (h : t.Changes created written t') : t.Extends t' := by
  induction h with
  | refl => exact Extends.refl t
  | directory _ absent ih => exact ih.trans (extends_put_absent absent _)
  | create content _ absent ih => exact ih.trans (extends_put_absent absent _)
  | write content _ below free ih => exact ih.trans (extends_put_file below free content)

theorem hasFiles (h : t.Changes created written t') : t'.HasFiles written := by
  induction h with
  | refl => exact nofun
  | directory _ absent ih => exact ih.extends (extends_put_absent absent _)
  | create content _ absent ih => exact ih.extends (extends_put_absent absent _)
  | @write _ _ t' place content _ below free ih =>
      intro w hw
      rcases List.mem_append.mp hw with hw | hw
      · exact ih.extends (extends_put_file below free content) w hw
      · obtain rfl := List.mem_singleton.mp hw
        exact ⟨content, get?_put_self t' below _⟩

/-- What was there and was not written is as it was. -/
theorem get?_eq (h : t.Changes created written t') (hq : (t.get? q).isSome)
    (hwritten : q ∉ written.map (·.1)) : t'.get? q = t.get? q := by
  have hpresent : ∀ {t' : FileTree} {place : List String}, t'.get? q = t.get? q →
      t'.get? place = none → q ≠ place := by
    rintro t' place hsame habsent rfl
    rw [← hsame, habsent] at hq
    cases hq
  induction h with
  | refl => rfl
  | directory _ absent ih =>
      have hsame := ih hwritten
      rwa [get?_put_of_ne _ (ne_nil_of_absent absent) _ (hpresent hsame absent)]
  | create content _ absent ih =>
      have hsame := ih hwritten
      rwa [get?_put_of_ne _ (ne_nil_of_absent absent) _ (hpresent hsame absent)]
  | write content _ below free ih =>
      rw [List.map_append, List.mem_append, not_or] at hwritten
      rw [get?_put_of_ne _ below _ (by simpa using hwritten.2), ih hwritten.1]

/-- The files that were neither created nor written are those that were there before. -/
theorem file?_eq (h : t.Changes created written t') (hcreated : q ∉ created)
    (hwritten : q ∉ written.map (·.1)) : t'.file? q = t.file? q := by
  induction h with
  | refl => rfl
  | @directory _ _ t' place _ absent ih =>
      rw [← ih hcreated hwritten]
      by_cases heq : q = place
      · subst heq
        rw [file?, file?, absent, get?_put_self t' (ne_nil_of_absent absent)]
      · exact file?_put_of_ne t' (ne_nil_of_absent absent) _ heq
  | create content _ absent ih =>
      rw [List.mem_append, not_or] at hcreated
      rw [← ih hcreated.1 hwritten]
      exact file?_put_of_ne _ (ne_nil_of_absent absent) _ (by simpa using hcreated.2)
  | write content _ below free ih =>
      rw [List.map_append, List.mem_append, not_or] at hwritten
      rw [← ih hcreated hwritten.1]
      exact file?_put_of_ne _ below _ (by simpa using hwritten.2)

theorem notMem_of_absent (h : t.Changes created written t') (habsent : t'.get? place = none) :
    place ∉ written.map (·.1) := by
  intro hmem
  obtain ⟨w, hw, rfl⟩ := List.mem_map.mp hmem
  obtain ⟨content, hcontent⟩ := h.hasFiles w hw
  cases habsent.symm.trans hcontent

/-- Writing everything once more changes nothing. -/
theorem rewrite_eq (h : t.Changes created written t') : t'.rewrite written = t' := by
  induction h with
  | refl => rfl
  | directory before absent ih =>
      rw [rewrite_put_of_notMem before.hasFiles (before.notMem_of_absent absent), ih]
  | create content before absent ih =>
      rw [rewrite_put_of_notMem before.hasFiles (before.notMem_of_absent absent), ih]
  | write content before below free ih =>
      -- of what was written at the place before, the last writing leaves no trace
      rw [rewrite_append]
      exact (put_rewrite_put before.hasFiles content).trans (by rw [ih])

end Changes

end FileTree

end ServiceGen

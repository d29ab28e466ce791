import Mathlib.Data.List.Nodup
import ServiceGen.Proofs.Declaration.Catalogue
import ServiceGen.Proofs.Files.PathOrder
import ServiceGen.Proofs.Files.WellFormed
import ServiceGen.Proofs.Run.Rediscovery
import ServiceGen.Proofs.Text.Search

/-!
What is loaded from a directory.  A walk through the directories below it may list each of them in
any order; the main statement, `Loading.loads_in_path_order`, says that the loading is the same for
all of them, and which documents and which modules are in it.
-/

namespace ServiceGen

namespace FileTree

variable {t : FileTree} {place : List String} {name : String} {e e' : Entry}

theorem exists_child_eq_some {q : List String} :
    (match q.getLast? with
      | some last => if q.dropLast = place then some (last, e) else none
      | none => none) = some (name, e') ↔ q = place ++ [name] ∧ e = e' := by
  rcases List.eq_nil_or_concat' q with rfl | ⟨init, last, rfl⟩
  · simp
  · by_cases hinit : init = place <;> simp [hinit]

theorem mem_children_iff : (name, e) ∈ t.children place ↔ (place ++ [name], e) ∈ t.entries := by
  rw [children, List.mem_filterMap]
  constructor
  · rintro ⟨⟨q, old⟩, hmem, hchild⟩
    obtain ⟨rfl, rfl⟩ := exists_child_eq_some.mp hchild
    exact hmem
  · exact fun hmem => ⟨_, hmem, exists_child_eq_some.mpr ⟨rfl, rfl⟩⟩

namespace WellFormed

theorem eq_of_mem (ht : t.WellFormed) {q : List String} (h : (q, e) ∈ t.entries)
    (h' : (q, e') ∈ t.entries) : e = e' := by
  rw [← lookup_eq_some_iff ht.nodup] at h h'
  exact Option.some.inj (h.symm.trans h')

/-- A directory lists every name once. -/
theorem nodup_children (ht : t.WellFormed) (place : List String) :
    ((t.children place).map (·.1)).Nodup := by
  have hchildren : (t.children place).Nodup := by
    refine List.Nodup.filterMap ?_ ht.nodup.of_map
    rintro ⟨q, e⟩ ⟨q', e'⟩ ⟨name, x⟩ h h'
    obtain ⟨rfl, rfl⟩ := exists_child_eq_some.mp h
    obtain ⟨rfl, rfl⟩ := exists_child_eq_some.mp h'
    rfl
  refine hchildren.map_on ?_
  rintro ⟨name, e⟩ h ⟨_, e'⟩ h' rfl
  rw [ht.eq_of_mem (mem_children_iff.mp h) (mem_children_iff.mp h')]

end WellFormed

end FileTree

namespace Loading

variable {t : FileTree} {root : Path} {place dir names : List String} {suffix : String}
  {content : Content}

/-- A file below a place that counts as a document: its name ends in the suffix, and no directory on
the way to it is hidden. -/
structure DocumentFile (t : FileTree) (place : List String) (suffix : String)
    (names : List String) (content : Content) : Prop where
  present : t.get? (place ++ names) = some (.file content)
  named : ∃ name, names.getLast? = some name ∧ suffix.toList <:+ name.toList
  visible : ∀ name ∈ names.dropLast, name.toList.head? ≠ some '.'

theorem isSome_stripEnd?_iff {name : String} :
    (Text.stripEnd? suffix name).isSome ↔ suffix.toList <:+ name.toList := by
  rw [Option.isSome_iff_exists]
  constructor
  · rintro ⟨rest, hrest⟩
    rw [Text.stripEnd?_eq_some_iff.mp hrest, String.toList_append]
    exact List.suffix_append _ _
  · rintro ⟨cs, hcs⟩
    refine ⟨.ofList cs, Text.stripEnd?_eq_some_iff.mpr (String.toList_injective ?_)⟩
    rw [← hcs, String.toList_append, String.toList_ofList]

def documents (t : FileTree) (place : List String) (suffix : String) :
    List (List String × Content) :=
  t.entries.filterMap (documentAt? place suffix)

theorem documentAt?_eq_some {q : List String} {e : Entry} :
    documentAt? place suffix (q, e) = some (names, content) ↔
      q = place ++ names ∧ e = .file content ∧ suffix.toList <:+ (names.getLast?.getD "").toList ∧
        ∀ name ∈ names.dropLast, name.toList.head? ≠ some '.' := by
  cases e with
  | directory => simp [documentAt?]
  | file held =>
      have hbelow : q = place ++ names ↔
          q.take place.length = place ∧ q.drop place.length = names := by
        constructor
        · rintro rfl
          simp
        · rintro ⟨htake, rfl⟩
          conv_lhs => rw [← List.take_append_drop place.length q, htake]
      rw [documentAt?, hbelow, ← isSome_stripEnd?_iff]
      constructor
      · intro h
        obtain ⟨hvisible, heq⟩ := Option.ite_none_right_eq_some.mp h
        obtain ⟨rfl, rfl⟩ := Prod.mk.inj (Option.some.inj heq)
        simp only [Bool.and_eq_true, decide_eq_true_eq, Bool.not_eq_true', List.any_eq_false,
          beq_iff_eq] at hvisible
        exact ⟨⟨hvisible.1.1, rfl⟩, rfl, hvisible.2, hvisible.1.2⟩
      · rintro ⟨⟨htake, rfl⟩, heq, hsuffix, hvisible⟩
        obtain rfl := Entry.file.inj heq
        rw [if_pos]
        simp only [Bool.and_eq_true, decide_eq_true_eq, Bool.not_eq_true', List.any_eq_false,
          beq_iff_eq]
        exact ⟨⟨htake, hvisible⟩, hsuffix⟩

theorem mem_documents_iff (ht : t.WellFormed) (hplace : t.get? place = some .directory) :
    (names, content) ∈ documents t place suffix ↔ DocumentFile t place suffix names content := by
  rw [documents, List.mem_filterMap]
  constructor
  · rintro ⟨⟨q, e⟩, hmem, hdocument⟩
    obtain ⟨rfl, rfl, hsuffix, hvisible⟩ := documentAt?_eq_some.mp hdocument
    have hpresent := (ht.get?_eq_some_iff (ht.named _ _ hmem).1).mpr hmem
    refine ⟨hpresent, ?_, hvisible⟩
    cases hlast : names.getLast? with
    | none =>
        rw [List.getLast?_eq_none_iff.mp hlast, List.append_nil, hplace] at hpresent
        cases hpresent
    | some name => exact ⟨name, rfl, by simpa [hlast] using hsuffix⟩
  · rintro ⟨hpresent, ⟨name, hlast, hsuffix⟩, hvisible⟩
    have hmem := (ht.get?_eq_some_iff (FileTree.place_ne_nil_of_file hpresent)).mp hpresent
    exact ⟨_, hmem, documentAt?_eq_some.mpr ⟨rfl, rfl, by simpa [hlast] using hsuffix, hvisible⟩⟩

theorem nodup_documents (ht : t.WellFormed) : (documents t place suffix).Nodup := by
  refine List.Nodup.filterMap ?_ ht.nodup.of_map
  rintro ⟨q, e⟩ ⟨q', e'⟩ ⟨names, content⟩ h h'
  obtain ⟨rfl, rfl, -⟩ := documentAt?_eq_some.mp h
  obtain ⟨rfl, rfl, -⟩ := documentAt?_eq_some.mp h'
  rfl

/-- The path of a file that some names lead to. -/
def pathOf (root : Path) (file : List String × Content) : Path :=
  file.1.foldl Path.push root

theorem components_pathOf (ht : t.WellFormed) (h : DocumentFile t place suffix names content) :
    (pathOf root (names, content)).components = root.components ++ names.map .name := by
  refine Path.components_foldl_push (fun name hname => ?_) root
  exact ht.isFileName (by rw [h.present]; rfl) name (List.mem_append_right place hname)

/-- Documents have paths of their own. -/
theorem nodup_components (ht : t.WellFormed) (hplace : t.get? place = some .directory)
    (root : Path) :
    ((documents t place suffix).map fun file => (pathOf root file).components).Nodup := by
  refine (nodup_documents ht).map_on ?_
  rintro ⟨names, content⟩ h ⟨names', content'⟩ h' heq
  have h := (mem_documents_iff ht hplace).mp h
  have h' := (mem_documents_iff ht hplace).mp h'
  have hname : Function.Injective Component.name := fun _ _ => Component.name.inj
  rw [components_pathOf ht h, components_pathOf ht h'] at heq
  obtain rfl := List.map_injective_iff.mpr hname (List.append_cancel_left heq)
  obtain rfl := Entry.file.inj (Option.some.inj (h.present.symm.trans h'.present))
  rfl

section Collecting

/-- What a walk finds in the part of a listing that is before it.  The names lead from the place
where the walk began to the directory `dir` whose listing it is; a directory that is not hidden is
walked through when it comes, in the order in which it is listed then. -/
inductive Collects (t : FileTree) (place : List String) (suffix : String) :
    List String → List (String × Entry) → List (List String × Content) → Prop
  | done {dir : List String} : Collects t place suffix dir [] []
  | document {dir : List String} {name : String} {content : Content}
      {listing : List (String × Entry)} {files : List (List String × Content)}
      (hname : suffix.toList <:+ name.toList) (rest : Collects t place suffix dir listing files) :
      Collects t place suffix dir ((name, .file content) :: listing)
        ((dir ++ [name], content) :: files)
  | other {dir : List String} {name : String} {content : Content}
      {listing : List (String × Entry)} {files : List (List String × Content)}
      (hname : ¬ suffix.toList <:+ name.toList)
      (rest : Collects t place suffix dir listing files) :
      Collects t place suffix dir ((name, .file content) :: listing) files
  | hidden {dir : List String} {name : String}
      {listing : List (String × Entry)} {files : List (List String × Content)}
      (hname : name.toList.head? = some '.') (rest : Collects t place suffix dir listing files) :
      Collects t place suffix dir ((name, .directory) :: listing) files
  | directory {dir : List String} {name : String} {listing inner : List (String × Entry)}
      {files found : List (List String × Content)} (hname : name.toList.head? ≠ some '.')
      (hinner : inner.Perm (t.children (place ++ dir ++ [name])))
      (below : Collects t place suffix (dir ++ [name]) inner found)
      (rest : Collects t place suffix dir listing files) :
      Collects t place suffix dir ((name, .directory) :: listing) (found ++ files)

variable {listing : List (String × Entry)} {files : List (List String × Content)}

theorem documentFile_singleton {name : String} :
    DocumentFile t place suffix [name] content ↔
      t.get? (place ++ [name]) = some (.file content) ∧ suffix.toList <:+ name.toList := by
  constructor
  · rintro ⟨hpresent, ⟨_, hlast, hsuffix⟩, -⟩
    obtain rfl := Option.some.inj hlast
    exact ⟨hpresent, hsuffix⟩
  · rintro ⟨hpresent, hsuffix⟩
    exact ⟨hpresent, ⟨name, rfl, hsuffix⟩, nofun⟩

theorem documentFile_cons {name : String} (hnames : names ≠ []) :
    DocumentFile t place suffix (name :: names) content ↔
      name.toList.head? ≠ some '.' ∧ DocumentFile t (place ++ [name]) suffix names content := by
  obtain ⟨next, rest, rfl⟩ := List.exists_cons_of_ne_nil hnames
  have hplace : place ++ name :: next :: rest = place ++ [name] ++ next :: rest := by simp
  constructor
  · rintro ⟨hpresent, ⟨last, hlast, hsuffix⟩, hvisible⟩
    rw [List.dropLast_cons_of_ne_nil hnames, List.forall_mem_cons] at hvisible
    rw [List.getLast?_cons_cons] at hlast
    exact ⟨hvisible.1, hplace ▸ hpresent, ⟨last, hlast, hsuffix⟩, hvisible.2⟩
  · rintro ⟨hname, hpresent, ⟨last, hlast, hsuffix⟩, hvisible⟩
    refine ⟨hplace ▸ hpresent, ⟨last, by rwa [List.getLast?_cons_cons], hsuffix⟩, ?_⟩
    rw [List.dropLast_cons_of_ne_nil hnames, List.forall_mem_cons]
    exact ⟨hname, hvisible⟩

theorem DocumentFile.above {name : String} (ht : t.WellFormed)
    (h : DocumentFile t place suffix (name :: names) content) (hnames : names ≠ []) :
    t.get? (place ++ [name]) = some .directory := by
  have hpresent := h.present
  rw [← List.singleton_append, ← List.append_assoc] at hpresent
  exact ht.above hnames (by rw [hpresent]; rfl)

theorem DocumentFile.isSome_first {name : String} (ht : t.WellFormed)
    (h : DocumentFile t place suffix (name :: names) content) :
    (t.get? (place ++ [name])).isSome := by
  by_cases hnames : names = []
  · subst hnames
    rw [h.present]
    rfl
  · rw [h.above ht hnames]
    rfl

/-- A document that one name of a directory leads to. -/
def DocumentUnder (t : FileTree) (place : List String) (suffix : String) (dir : List String)
    (name : String) (file : List String × Content) : Prop :=
  ∃ below, file.1 = dir ++ name :: below ∧
    DocumentFile t (place ++ dir) suffix (name :: below) file.2

variable {name : String} {file : List String × Content}

theorem documentUnder_file (ht : t.WellFormed)
    (hname : (place ++ dir ++ [name], .file content) ∈ t.entries) :
    DocumentUnder t place suffix dir name file ↔
      file = (dir ++ [name], content) ∧ suffix.toList <:+ name.toList := by
  have hpresent := (ht.get?_eq_some_iff (by simp)).mpr hname
  obtain ⟨names, held⟩ := file
  constructor
  · rintro ⟨below, rfl, hdocument⟩
    -- nothing is below a file
    obtain rfl : below = [] := by
      by_contra hbelow
      cases hpresent.symm.trans (hdocument.above ht hbelow)
    obtain ⟨hheld, hsuffix⟩ := documentFile_singleton.mp hdocument
    obtain rfl := Entry.file.inj (Option.some.inj (hheld.symm.trans hpresent))
    exact ⟨rfl, hsuffix⟩
  · rintro ⟨heq, hsuffix⟩
    obtain ⟨rfl, rfl⟩ := Prod.mk.inj heq
    exact ⟨[], rfl, documentFile_singleton.mpr ⟨hpresent, hsuffix⟩⟩

theorem documentUnder_directory (ht : t.WellFormed)
    (hname : (place ++ dir ++ [name], .directory) ∈ t.entries) :
    DocumentUnder t place suffix dir name file ↔
      name.toList.head? ≠ some '.' ∧
        ∃ next ∈ (t.children (place ++ dir ++ [name])).map (·.1),
          DocumentUnder t place suffix (dir ++ [name]) next file := by
  have hpresent := (ht.get?_eq_some_iff (by simp)).mpr hname
  constructor
  · rintro ⟨below, hnames, hdocument⟩
    cases below with
    | nil => cases hpresent.symm.trans hdocument.present
    | cons next below =>
        obtain ⟨hvisible, hdocument⟩ := (documentFile_cons (List.cons_ne_nil _ _)).mp hdocument
        refine ⟨hvisible, next, ?_, below, by simp [hnames], ?_⟩
        · obtain ⟨e, he⟩ := Option.isSome_iff_exists.mp (hdocument.isSome_first ht)
          have hmem := FileTree.mem_children_iff.mpr ((ht.get?_eq_some_iff (by simp)).mp he)
          exact List.mem_map_of_mem (f := (·.1)) hmem
        · rwa [← List.append_assoc]
  · rintro ⟨hvisible, next, -, below, hnames, hdocument⟩
    refine ⟨next :: below, by simp [hnames], ?_⟩
    rw [← List.append_assoc] at hdocument
    exact (documentFile_cons (List.cons_ne_nil _ _)).mpr ⟨hvisible, hdocument⟩

/-- A walk finds the documents that the names before it lead to. -/
theorem Collects.mem_iff (ht : t.WellFormed) (h : Collects t place suffix dir listing files)
    (hlisting : ∀ entry ∈ listing, (place ++ dir ++ [entry.1], entry.2) ∈ t.entries) :
    file ∈ files ↔
      ∃ name ∈ listing.map (·.1), DocumentUnder t place suffix dir name file := by
  induction h generalizing file with
  | done => simp
  | document hname rest ih =>
      rw [List.forall_mem_cons] at hlisting
      rw [List.mem_cons, ih hlisting.2, List.map_cons, List.exists_mem_cons_iff,
        documentUnder_file ht hlisting.1]
      exact or_congr_left (and_iff_left hname).symm
  | other hname rest ih =>
      rw [List.forall_mem_cons] at hlisting
      rw [ih hlisting.2, List.map_cons, List.exists_mem_cons_iff, documentUnder_file ht hlisting.1]
      exact (or_iff_right fun h => hname h.2).symm
  | hidden hname rest ih =>
      rw [List.forall_mem_cons] at hlisting
      rw [ih hlisting.2, List.map_cons, List.exists_mem_cons_iff,
        documentUnder_directory ht hlisting.1]
      exact (or_iff_right fun h => h.1 hname).symm
  | directory hname hinner below rest ihbelow ih =>
      rw [List.forall_mem_cons] at hlisting
      have hentries : ∀ entry ∈ _, _ := fun entry hentry =>
        FileTree.mem_children_iff.mp (hinner.subset hentry)
      rw [List.mem_append, ih hlisting.2, List.map_cons, List.exists_mem_cons_iff,
        documentUnder_directory ht hlisting.1, ihbelow (by simpa using hentries)]
      simp only [(hinner.map (·.1)).mem_iff]
      exact or_congr_left (and_iff_right hname).symm

/-- What one name leads to, no other one does. -/
theorem not_documentUnder_others {others : List String} (hname : name ∉ others)
    (h : DocumentUnder t place suffix dir name file) :
    ¬ ∃ other ∈ others, DocumentUnder t place suffix dir other file := by
  obtain ⟨below, hnames, -⟩ := h
  rintro ⟨other, hother, below', hnames', -⟩
  obtain ⟨rfl, -⟩ := List.cons.inj (List.append_cancel_left (hnames.symm.trans hnames'))
  exact hname hother

/-- A walk finds nothing twice. -/
theorem Collects.nodup (ht : t.WellFormed) (h : Collects t place suffix dir listing files)
    (hlisting : ∀ entry ∈ listing, (place ++ dir ++ [entry.1], entry.2) ∈ t.entries)
    (hnodup : (listing.map (·.1)).Nodup) : files.Nodup := by
  induction h with
  | done => exact List.nodup_nil
  | document hname rest ih =>
      rw [List.forall_mem_cons] at hlisting
      rw [List.map_cons, List.nodup_cons] at hnodup
      refine List.nodup_cons.mpr ⟨fun hmem => ?_, ih hlisting.2 hnodup.2⟩
      exact not_documentUnder_others hnodup.1 ((documentUnder_file ht hlisting.1).mpr ⟨rfl, hname⟩)
        ((rest.mem_iff ht hlisting.2).mp hmem)
  | other _ _ ih | hidden _ _ ih =>
      rw [List.forall_mem_cons] at hlisting
      rw [List.map_cons, List.nodup_cons] at hnodup
      exact ih hlisting.2 hnodup.2
  | @directory dir name listing inner files found hname hinner below rest ihbelow ih =>
      rw [List.forall_mem_cons] at hlisting
      rw [List.map_cons, List.nodup_cons] at hnodup
      have hentries : ∀ entry ∈ inner,
          (place ++ (dir ++ [name]) ++ [entry.1], entry.2) ∈ t.entries := fun entry hentry => by
        rw [← List.append_assoc]
        exact FileTree.mem_children_iff.mp (hinner.subset hentry)
      have hfound := ihbelow hentries ((hinner.map _).nodup_iff.mpr (ht.nodup_children _))
      refine List.nodup_append'.mpr ⟨hfound, ih hlisting.2 hnodup.2, fun file hmem hmem' => ?_⟩
      have hunder := (below.mem_iff ht hentries).mp hmem
      simp only [(hinner.map (·.1)).mem_iff] at hunder
      have hdocument := (documentUnder_directory ht hlisting.1).mpr ⟨hname, hunder⟩
      exact not_documentUnder_others hnodup.1 hdocument ((rest.mem_iff ht hlisting.2).mp hmem')

/-- However the directories are listed, a walk through all of them finds the documents. -/
theorem Collects.perm (ht : t.WellFormed) (hplace : t.get? place = some .directory)
    (hlisting : listing.Perm (t.children place)) (h : Collects t place suffix [] listing files) :
    files.Perm (documents t place suffix) := by
  have hentries : ∀ entry ∈ listing, (place ++ [] ++ [entry.1], entry.2) ∈ t.entries :=
    fun entry hentry => by
      rw [List.append_nil]
      exact FileTree.mem_children_iff.mp (hlisting.subset hentry)
  have hnodup := h.nodup ht hentries ((hlisting.map _).nodup_iff.mpr (ht.nodup_children _))
  refine (List.perm_ext_iff_of_nodup hnodup (nodup_documents ht)).mpr fun ⟨names, content⟩ => ?_
  rw [h.mem_iff ht hentries, mem_documents_iff ht hplace]
  constructor
  · rintro ⟨name, -, below, rfl, hdocument⟩
    simpa using hdocument
  · intro hdocument
    cases names with
    | nil => cases hplace.symm.trans (by simpa using hdocument.present)
    | cons name below =>
        obtain ⟨e, he⟩ := Option.isSome_iff_exists.mp (hdocument.isSome_first ht)
        have hmem := FileTree.mem_children_iff.mpr ((ht.get?_eq_some_iff (by simp)).mp he)
        exact ⟨name, (hlisting.map _).symm.subset (List.mem_map_of_mem hmem), below, rfl,
          by simpa using hdocument⟩

theorem exists_collects_within {depth : Nat}
    (hdepth : ∀ entry ∈ t.entries, entry.1.length ≤ (place ++ dir).length + depth)
    (hlisting : ∀ entry ∈ listing, (place ++ dir ++ [entry.1], entry.2) ∈ t.entries) :
    ∃ files, Collects t place suffix dir listing files := by
  induction depth generalizing dir listing with
  | zero =>
      cases listing with
      | nil => exact ⟨[], .done⟩
      | cons entry listing =>
          have hlength := hdepth _ (hlisting entry List.mem_cons_self)
          rw [List.length_append, List.length_singleton] at hlength
          omega
  | succ depth ihdepth =>
      induction listing with
      | nil => exact ⟨[], .done⟩
      | cons entry listing ih =>
          obtain ⟨name, e⟩ := entry
          rw [List.forall_mem_cons] at hlisting
          obtain ⟨files, hfiles⟩ := ih hlisting.2
          cases e with
          | file content =>
              by_cases hname : suffix.toList <:+ name.toList
              · exact ⟨_, .document hname hfiles⟩
              · exact ⟨_, .other hname hfiles⟩
          | directory =>
              by_cases hname : name.toList.head? = some '.'
              · exact ⟨_, .hidden hname hfiles⟩
              · have hbelow : ∀ entry ∈ t.entries,
                    entry.1.length ≤ (place ++ (dir ++ [name])).length + depth := by
                  intro entry hentry
                  have hlength := hdepth entry hentry
                  simp only [List.length_append, List.length_singleton] at hlength ⊢
                  omega
                have hentries : ∀ entry ∈ t.children (place ++ dir ++ [name]),
                    (place ++ (dir ++ [name]) ++ [entry.1], entry.2) ∈ t.entries :=
                  fun entry hentry => by simpa using FileTree.mem_children_iff.mp hentry
                obtain ⟨found, hfound⟩ := ihdepth hbelow hentries
                exact ⟨_, .directory hname (List.Perm.refl _) hfound hfiles⟩

/-- A walk comes to its end, since some place is the deepest one. -/
theorem exists_collects (t : FileTree) (place : List String) (suffix : String) :
    ∃ files, Collects t place suffix [] (t.children place) files := by
  have hdepth : ∀ entry ∈ t.entries, entry.1.length ≤
      (place ++ []).length + (t.entries.map (·.1.length)).max?.getD 0 := by
    intro entry hentry
    have hmem : entry.1.length ∈ t.entries.map (·.1.length) := List.mem_map_of_mem hentry
    exact (List.le_max?_getD_of_mem hmem).trans (Nat.le_add_left ..)
  exact exists_collects_within hdepth fun entry hentry => by
    simpa using FileTree.mem_children_iff.mp hentry

end Collecting

section Files

/-- The documents that can be read among some files. -/
def readable (files : List (List String × Content)) : List Document :=
  files.filterMap fun file => document? file.2

/-- What comes of loading some files in the order of their paths. -/
def ofFiles (root : Path) (files : List (List String × Content)) : Loading :=
  ((Path.inOrder (pathOf root) files).map fun file => (pathOf root file, file.2)).foldl add
    ⟨.empty, [], []⟩

theorem foldl_add (root : Path) (files : List (List String × Content)) (l : Loading) :
    (files.map fun file => (pathOf root file, file.2)).foldl add l =
      ⟨(readable files).foldl Catalogue.extend l.catalogue,
        l.loaded ++ (files.filter fun file => (document? file.2).isSome).map (pathOf root),
        l.skipped ++ (files.filter fun file => (document? file.2).isNone).map (pathOf root)⟩ := by
  induction files generalizing l with
  | nil => simp [readable]
  | cons file rest ih =>
      rw [List.map_cons, List.foldl_cons, ih]
      cases hdocument : document? file.2 <;> simp [add, readable, hdocument]

theorem ofFiles_eq_of_perm (ht : t.WellFormed) (hplace : t.get? place = some .directory)
    {files : List (List String × Content)} (hfiles : files.Perm (documents t place suffix)) :
    ofFiles root files = ofFiles root (documents t place suffix) := by
  rw [ofFiles, ofFiles, Path.inOrder_eq_of_perm (nodup_components ht hplace root) hfiles]

theorem ofDirectory_eq (hroot : t.resolve root = .ok place)
    (hplace : t.get? place = some .directory) :
    ofDirectory t root suffix = .ok (ofFiles root (documents t place suffix)) := by
  have hsorted : documentFiles t root place suffix =
      (Path.inOrder (pathOf root) (documents t place suffix)).map fun file =>
        (pathOf root file, file.2) := by
    rw [documentFiles, filter_visibleFiles, Path.inOrder, List.map_mergeSort]
    · rfl
    · exact fun _ _ _ _ => rfl
  rw [ofDirectory, hroot]
  simp only [hplace, bne_self_eq_false, Bool.false_eq_true, if_false, hsorted]
  rfl

/-- The order of the entries is of no importance. -/
theorem ofDirectory_eq_of_perm (ht : t.WellFormed) (hroot : t.resolve root = .ok place)
    (hplace : t.get? place = some .directory) {t' : FileTree}
    (hperm : t'.entries.Perm t.entries) :
    ofDirectory t' root suffix = ofDirectory t root suffix := by
  have hget := ht.get?_eq_of_perm hperm
  have hextends : t.Extends t' := fun q e hq => ⟨e, (hget q).trans hq, Iff.rfl⟩
  have hdocuments : (documents t' place suffix).Perm (documents t place suffix) :=
    hperm.filterMap _
  rw [ofDirectory_eq hroot hplace, ofDirectory_eq (hextends.resolve hroot) (hplace ▸ hget place),
    ofFiles_eq_of_perm ht hplace hdocuments]

end Files

/-- A loading of all document files below a place: the files come in the order of their paths, those
that are documents are loaded and the others skipped, and the modules of the documents are
registered in that order. -/
structure InPathOrder (t : FileTree) (root : Path) (place : List String) (suffix : String)
    (files : List (List String × Content)) (l : Loading) : Prop where
  documents : ∀ names content, (names, content) ∈ files ↔ DocumentFile t place suffix names content
  ascending : (files.map (pathOf root)).Pairwise fun p q => p.compare q = .lt
  loaded : l.loaded = (files.filter fun file => (document? file.2).isSome).map (pathOf root)
  skipped : l.skipped = (files.filter fun file => (document? file.2).isNone).map (pathOf root)
  together : (l.loaded ++ l.skipped).Perm (files.map (pathOf root))
  catalogue : l.catalogue = (readable files).foldl Catalogue.extend .empty
  once : l.catalogue.modules.keys.Nodup
  first : l.catalogue.modules.keys =
    (((readable files).flatMap (·.modules)).map (·.name)).eraseDups
  last : ∀ name, l.catalogue.get? name =
    (((readable files).flatMap (·.modules)).reverse.find? (·.name == name)).map
      ModuleDeclaration.complete

theorem inPathOrder_ofFiles (ht : t.WellFormed) (hplace : t.get? place = some .directory)
    (root : Path) (suffix : String) :
    InPathOrder t root place suffix (Path.inOrder (pathOf root) (Loading.documents t place suffix))
      (ofFiles root (Loading.documents t place suffix)) where
  documents := fun names content => by
    rw [(Path.inOrder_perm _ _).mem_iff, mem_documents_iff ht hplace]
  ascending := List.pairwise_map.mpr (Path.pairwise_inOrder (nodup_components ht hplace root))
  loaded := by rw [ofFiles, foldl_add, List.nil_append]
  skipped := by
    rw [ofFiles, foldl_add]
    exact List.nil_append _
  together := by
    rw [ofFiles, foldl_add, List.nil_append, List.nil_append, ← List.map_append]
    refine List.Perm.map _ ?_
    simpa only [Option.not_isSome] using List.filter_append_perm
      (fun file : List String × Content => (document? file.2).isSome)
      (Path.inOrder (pathOf root) (Loading.documents t place suffix))
  catalogue := by rw [ofFiles, foldl_add]
  once := by
    rw [ofFiles, foldl_add]
    exact (Catalogue.wellNamed_of_documents _).keys_nodup
  first := by rw [ofFiles, foldl_add, Catalogue.foldl_extend, Catalogue.keys_registerAll]
  last := fun name => by
    rw [ofFiles, foldl_add, Catalogue.foldl_extend, Catalogue.get?_registerAll]

/-- A directory has one loading, with all its documents in the order of their paths.  It does not
depend on the order of the entries, and a walk that lists every directory in an order of its own
finds the files for the same one. -/
theorem loads_in_path_order {t : FileTree} {root : Path} {place : List String} (suffix : String)
    (ht : t.WellFormed) (hroot : t.resolve root = .ok place)
    (hplace : t.get? place = some .directory) :
    ∃ files l, ofDirectory t root suffix = .ok l ∧ InPathOrder t root place suffix files l ∧
      (∀ t' : FileTree, t'.entries.Perm t.entries → ofDirectory t' root suffix = .ok l) ∧
      (∃ found, Collects t place suffix [] (t.children place) found) ∧
      ∀ listing found, listing.Perm (t.children place) →
        Collects t place suffix [] listing found → ofFiles root found = l := by
  have hloading : ofDirectory t root suffix = .ok (ofFiles root (documents t place suffix)) :=
    ofDirectory_eq hroot hplace
  refine ⟨_, _, hloading, inPathOrder_ofFiles ht hplace root suffix, fun t' hperm => ?_,
    exists_collects t place suffix, fun listing found hlisting hfound => ?_⟩
  · rw [ofDirectory_eq_of_perm ht hroot hplace hperm, hloading]
  · exact ofFiles_eq_of_perm ht hplace (hfound.perm ht hplace hlisting)

end Loading

namespace LoadingWitness

open Loading

/-- Two documents that declare a module `stock`, one in a hidden directory, and a file that is no
text. -/
def shop : FileTree :=
  ⟨[(["app"], .directory), (["app", "zone"], .directory),
    (["app", "zone", "a.rpc.json"], .file (.text "[[\x7b\"name\":\"stock\"\x7d]]")),
    (["app", ".git"], .directory),
    (["app", ".git", "old.rpc.json"], .file (.text "[[\x7b\"name\":\"stock\"\x7d]]")),
    (["app", "b.rpc.json"],
      .file (.text "[[\x7b\"name\":\"stock\"\x7d,\x7b\"name\":\"sales\"\x7d]]")),
    (["app", "c.rpc.json"], .file (.binary [255]))]⟩

theorem shop_wellFormed : shop.WellFormed where
  nodup := by decide
  named := by
    have hnamed : ∀ entry ∈ shop.entries,
        entry.1 ≠ [] ∧ ∀ name ∈ entry.1, Path.IsFileName name := by
      unfold Path.IsFileName
      decide
    exact fun q e h => hnamed (q, e) h
  parent := by
    have hparent : ∀ entry ∈ shop.entries, shop.get? entry.1.dropLast = some .directory := by
      decide
    exact fun q e h => hparent (q, e) h

/-- The file that is listed first comes last in the order of the paths. -/
theorem inOrder_documents_shop :
    Path.inOrder (pathOf ⟨"/app"⟩) (documents shop ["app"] ".rpc.json") =
      (documents shop ["app"] ".rpc.json").drop 1 ++
        (documents shop ["app"] ".rpc.json").take 1 := by
  have hperm : ((documents shop ["app"] ".rpc.json").drop 1 ++
      (documents shop ["app"] ".rpc.json").take 1).Perm (documents shop ["app"] ".rpc.json") :=
    List.perm_append_comm.trans (.of_eq (List.take_append_drop 1 _))
  rw [← Path.inOrder_eq_of_perm (nodup_components shop_wellFormed (by decide) ⟨"/app"⟩) hperm]
  exact List.mergeSort_of_pairwise (by decide +kernel)

theorem shop_loads_in_path_order :
    shop.WellFormed ∧ shop.resolve ⟨"/app"⟩ = .ok ["app"] ∧ shop.get? ["app"] = some .directory ∧
      ∃ files l, ofDirectory shop ⟨"/app"⟩ ".rpc.json" = .ok l ∧
        InPathOrder shop ⟨"/app"⟩ ["app"] ".rpc.json" files l ∧
        l.loaded = [⟨"/app/b.rpc.json"⟩, ⟨"/app/zone/a.rpc.json"⟩] ∧
        l.skipped = [⟨"/app/c.rpc.json"⟩] ∧ l.catalogue.modules.keys = ["stock", "sales"] ∧
          ofDirectory ⟨shop.entries.reverse⟩ ⟨"/app"⟩ ".rpc.json" = .ok l := by
  have hroot : shop.resolve ⟨"/app"⟩ = .ok ["app"] :=
    Fallible.eq_ok_of_toOption (by decide +kernel)
  have hplace : shop.get? ["app"] = some .directory := by decide
  obtain ⟨files, l, hl, horder, hperm, -⟩ :=
    loads_in_path_order ".rpc.json" shop_wellFormed hroot hplace
  obtain rfl : ofFiles ⟨"/app"⟩ (documents shop ["app"] ".rpc.json") = l :=
    Except.ok.inj ((ofDirectory_eq hroot hplace).symm.trans hl)
  refine ⟨shop_wellFormed, hroot, hplace, files, _, hl, horder, ?_, ?_, ?_,
    hperm _ (List.reverse_perm _)⟩ <;>
  · rw [ofFiles, inOrder_documents_shop]
    decide +kernel

end LoadingWitness

end ServiceGen

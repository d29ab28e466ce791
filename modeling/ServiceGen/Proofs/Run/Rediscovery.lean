import ServiceGen.Proofs.Files.Operations
import ServiceGen.Run.Discovery

/-!
What a generation writes is not taken for a declaration: as long as no file is named like a
document, making directories and files changes nothing in what is discovered.
-/

namespace ServiceGen

namespace FileTree

variable {place : List String} {e old : Entry} {entries : List (List String × Entry)}

/-- An entry that a filter passes over may be put without the filter noticing. -/
theorem filterMap_putEntry {β : Type} {f : List String × Entry → Option β}
    (hplace : ∀ e, f (place, e) = none) (e : Entry) (entries : List (List String × Entry)) :
    (put.putEntry place e entries).filterMap f = entries.filterMap f := by
  induction entries with
  | nil => simp [put.putEntry, hplace]
  | cons entry rest ih =>
      obtain ⟨p, old⟩ := entry
      by_cases hp : p = place
      · subst hp
        simp [put.putEntry, hplace]
      · simp [put.putEntry, hp, List.filterMap_cons, ih]

end FileTree

namespace Loading

variable {t t' : FileTree} {root : Path} {place q : List String} {suffix : String}

/-- The last name of the place is not that of a document. -/
def IsNoDocument (suffix : String) (q : List String) : Prop :=
  ∀ name, q.getLast? = some name → Text.stripEnd? suffix name = none

/-- A document below a place. -/
def documentAt? (place : List String) (suffix : String) :
    List String × Entry → Option (List String × Content)
  | (_, .directory) => none
  | (p, .file content) =>
      let names := p.drop place.length
      if p.take place.length = place && !names.dropLast.any (·.toList.head? == some '.') &&
          (Text.stripEnd? suffix (names.getLast?.getD "")).isSome then some (names, content)
      else none

theorem filter_visibleFiles (t : FileTree) (place : List String) (suffix : String) :
    (visibleFiles t place).filter (fun (names, _) =>
        (Text.stripEnd? suffix (names.getLast?.getD "")).isSome) =
      t.entries.filterMap (documentAt? place suffix) := by
  rw [visibleFiles, List.filter_filterMap]
  refine congrArg (fun f => t.entries.filterMap f) (funext fun entry => ?_)
  obtain ⟨p, e⟩ := entry
  cases e with
  | directory => rfl
  | file content =>
      dsimp only [documentAt?]
      cases (decide (p.take place.length = place) &&
        !(p.drop place.length).dropLast.any (·.toList.head? == some '.')) <;> simp [Option.filter]

theorem documentAt?_eq_none (hq : IsNoDocument suffix q) (hne : q ≠ place) (e : Entry) :
    documentAt? place suffix (q, e) = none := by
  cases e with
  | directory => rfl
  | file content =>
      rw [documentAt?]
      refine if_neg fun hvisible => ?_
      simp only [Bool.and_eq_true, decide_eq_true_eq] at hvisible
      obtain ⟨⟨hbelow, -⟩, hsuffix⟩ := hvisible
      have hq' : place ++ q.drop place.length = q := by
        conv_rhs => rw [← List.take_append_drop place.length q, hbelow]
      cases hlast : (q.drop place.length).getLast? with
      | none =>
          rw [List.getLast?_eq_none_iff.mp hlast, List.append_nil] at hq'
          exact hne hq'.symm
      | some name =>
          have hname : q.getLast? = some name := by
            rw [← hq', List.getLast?_append, hlast]
            rfl
          simp [hlast, hq name hname] at hsuffix

/-- What is put at a place that is named like no document is not found. -/
theorem documents_put (hq : IsNoDocument suffix q) (hne : q ≠ place) (e : Entry) :
    (t.put q e).entries.filterMap (documentAt? place suffix) =
      t.entries.filterMap (documentAt? place suffix) :=
  FileTree.filterMap_putEntry (documentAt?_eq_none hq hne) e t.entries

theorem documents_of_changes {created : List (List String)}
    {written : List (List String × Content)} (h : t.Changes created written t')
    (hplace : t.get? place = some .directory) (hcreated : ∀ q ∈ created, IsNoDocument suffix q)
    (hwritten : ∀ w ∈ written, IsNoDocument suffix w.1) :
    t'.entries.filterMap (documentAt? place suffix) =
      t.entries.filterMap (documentAt? place suffix) := by
  induction h with
  | refl => rfl
  | @directory _ _ t' q before absent ih =>
      have hlookup : t'.entries.lookup q = none := by
        rw [FileTree.lookup_eq_get? t' (FileTree.ne_nil_of_absent absent), absent]
      rw [← ih hcreated hwritten, FileTree.put, FileTree.putEntry_of_lookup_eq_none _ hlookup,
        List.filterMap_append]
      simp [documentAt?]
  | @create _ _ t' q content before absent ih =>
      rw [List.forall_mem_append] at hcreated
      have hne : q ≠ place := by
        rintro rfl
        cases absent.symm.trans (before.grows.directory hplace)
      rw [documents_put (hcreated.2 q List.mem_cons_self) hne, ih hcreated.1 hwritten]
  | @write _ _ t' q content before below free ih =>
      rw [List.forall_mem_append] at hwritten
      have hne : q ≠ place := by
        rintro rfl
        exact free (before.grows.directory hplace)
      rw [documents_put (hwritten.2 _ List.mem_cons_self) hne, ih hcreated hwritten.1]

/-- The documents below a directory are the same after changes that are named like none. -/
theorem ofDirectory_of_changes {created : List (List String)}
    {written : List (List String × Content)} (h : t.Changes created written t')
    (hcreated : ∀ q ∈ created, IsNoDocument suffix q)
    (hwritten : ∀ w ∈ written, IsNoDocument suffix w.1) {loading : Loading}
    (hloaded : ofDirectory t root suffix = .ok loading) :
    ofDirectory t' root suffix = .ok loading := by
  unfold ofDirectory at hloaded ⊢
  split at hloaded
  · cases hloaded
  · rename_i place hplace
    split at hloaded
    · cases hloaded
    · rename_i hdirectory
      have hplaced : t.get? place = some .directory := by simpa using hdirectory
      have hsame : documentFiles t' root place suffix = documentFiles t root place suffix := by
        simp only [documentFiles, filter_visibleFiles,
          documents_of_changes h hplaced hcreated hwritten]
      rw [h.grows.resolve hplace]
      simp only [h.grows.directory hplaced, hsame, bne_self_eq_false, Bool.false_eq_true, if_false]
      exact hloaded

end Loading

/-- What was discovered is discovered again after changes that are named like no document. -/
theorem Discovery.ofDirectory_of_changes {t t' : FileTree} {root : Path} {scan : ScanSettings}
    {needImplementation : Bool} {created : List (List String)}
    {written : List (List String × Content)} (h : t.Changes created written t')
    (hcreated : ∀ q ∈ created, Loading.IsNoDocument scan.suffix q)
    (hwritten : ∀ w ∈ written, Loading.IsNoDocument scan.suffix w.1) {d : Discovery}
    (hfound : Discovery.ofDirectory t root scan needImplementation = .ok d) :
    Discovery.ofDirectory t' root scan needImplementation = .ok d := by
  unfold Discovery.ofDirectory at hfound ⊢
  cases hloaded : Loading.ofDirectory t root scan.suffix with
  | error e =>
      rw [hloaded] at hfound
      cases hfound
  | ok loading =>
      rw [hloaded] at hfound
      rw [Loading.ofDirectory_of_changes h hcreated hwritten hloaded]
      exact hfound

end ServiceGen

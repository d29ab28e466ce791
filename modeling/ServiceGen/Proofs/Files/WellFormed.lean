import Mathlib.Data.List.Nodup
import Mathlib.Data.List.Perm.Basic
import ServiceGen.Proofs.Files.Operations

/-!
Trees of files as an operating system keeps them: every place has one entry, is named by file names,
and lies in a directory.  The operations keep that.
-/

namespace ServiceGen.FileTree

variable {t t' : FileTree} {place q : List String} {e : Entry}

/-- Every place is there once, its names are those of files, and what is above it is a directory. -/
structure WellFormed (t : FileTree) : Prop where
  nodup : (t.entries.map (·.1)).Nodup
  named : ∀ q e, (q, e) ∈ t.entries → q ≠ [] ∧ ∀ name ∈ q, Path.IsFileName name
  parent : ∀ q e, (q, e) ∈ t.entries → t.get? q.dropLast = some .directory

section Looking

theorem lookup_eq_some_iff {entries : List (List String × Entry)}
    (h : (entries.map (·.1)).Nodup) : entries.lookup q = some e ↔ (q, e) ∈ entries := by
  induction entries with
  | nil => simp
  | cons entry rest ih =>
      obtain ⟨p, old⟩ := entry
      rw [List.map_cons, List.nodup_cons] at h
      rw [List.lookup_cons, List.mem_cons, Prod.mk.injEq]
      by_cases hq : q = p
      · subst hq
        have hnot : (q, e) ∉ rest := fun hmem => h.1 (List.mem_map_of_mem (f := (·.1)) hmem)
        simp [hnot, eq_comm]
      · have hne : (q == p) = false := beq_eq_false_iff_ne.mpr hq
        simp [hne, hq, ih h.2]

namespace WellFormed

theorem get?_eq_some_iff (ht : t.WellFormed) (hq : q ≠ []) :
    t.get? q = some e ↔ (q, e) ∈ t.entries := by
  rw [← lookup_eq_get? t hq, lookup_eq_some_iff ht.nodup]

theorem isFileName (ht : t.WellFormed) (h : (t.get? q).isSome) :
    ∀ name ∈ q, Path.IsFileName name := by
  obtain ⟨e, he⟩ := Option.isSome_iff_exists.mp h
  by_cases hq : q = []
  · simp [hq]
  · exact (ht.named q e ((ht.get?_eq_some_iff hq).mp he)).2

theorem parent_of_isSome (ht : t.WellFormed) (h : (t.get? q).isSome) (hq : q ≠ []) :
    t.get? q.dropLast = some .directory := by
  obtain ⟨e, he⟩ := Option.isSome_iff_exists.mp h
  exact ht.parent q e ((ht.get?_eq_some_iff hq).mp he)

/-- All that is above a place are directories. -/
theorem above (ht : t.WellFormed) {below : List String} (hbelow : below ≠ [])
    (h : (t.get? (place ++ below)).isSome) : t.get? place = some .directory := by
  induction below using List.reverseRecOn with
  | nil => exact absurd rfl hbelow
  | append_singleton below last ih =>
      have hparent := ht.parent_of_isSome h (by simp)
      rw [← List.append_assoc, List.dropLast_concat] at hparent
      by_cases hnil : below = []
      · rwa [hnil, List.append_nil] at hparent
      · exact ih hnil (by rw [hparent]; rfl)

/-- The order of the entries is of no importance. -/
theorem get?_eq_of_perm (ht : t.WellFormed) (hperm : t'.entries.Perm t.entries) (q : List String) :
    t'.get? q = t.get? q := by
  by_cases hq : q = []
  · simp [get?, hq]
  · have hnodup : (t'.entries.map (·.1)).Nodup := (hperm.map _).nodup_iff.mpr ht.nodup
    rw [← lookup_eq_get? t hq, ← lookup_eq_get? t' hq]
    refine Option.ext fun e => ?_
    rw [lookup_eq_some_iff hnodup, lookup_eq_some_iff ht.nodup, hperm.mem_iff]

end WellFormed

end Looking

section Operations

theorem wellFormed_empty : empty.WellFormed where
  nodup := List.nodup_nil
  named := nofun
  parent := nofun

/-- Something new may be put into a directory under the name of a file. -/
theorem WellFormed.put_absent (ht : t.WellFormed) (hplace : t.get? place = some .directory)
    {name : String} (hname : Path.IsFileName name) (habsent : t.get? (place ++ [name]) = none) :
    (t.put (place ++ [name]) e).WellFormed := by
  have hne : place ++ [name] ≠ [] := by simp
  have hlookup : t.entries.lookup (place ++ [name]) = none := by rw [lookup_eq_get? t hne, habsent]
  have hentries : (t.put (place ++ [name]) e).entries = t.entries ++ [(place ++ [name], e)] :=
    putEntry_of_lookup_eq_none e hlookup
  have hkept : ∀ q, t.get? q = some .directory →
      (t.put (place ++ [name]) e).get? q = some .directory := fun q hq => by
    rwa [get?_put_of_ne t hne e fun heq => by simp [heq, habsent] at hq]
  refine ⟨?_, fun q old hmem => ?_, fun q old hmem => ?_⟩
  · rw [hentries, List.map_append, List.map_singleton]
    refine List.nodup_append.mpr ⟨ht.nodup, by simp, ?_⟩
    intro q hq other hother heq
    obtain ⟨⟨p, old⟩, hmem, rfl⟩ := List.mem_map.mp hq
    obtain rfl : p = place ++ [name] := heq.trans (List.mem_singleton.mp hother)
    cases hlookup.symm.trans ((lookup_eq_some_iff ht.nodup).mpr hmem)
  · rw [hentries, List.mem_append, List.mem_singleton, Prod.mk.injEq] at hmem
    rcases hmem with hmem | ⟨rfl, -⟩
    · exact ht.named q old hmem
    · refine ⟨hne, ?_⟩
      rw [List.forall_mem_append]
      exact ⟨ht.isFileName (by rw [hplace]; rfl), by simpa using hname⟩
  · rw [hentries, List.mem_append, List.mem_singleton, Prod.mk.injEq] at hmem
    rcases hmem with hmem | ⟨rfl, -⟩
    · exact hkept _ (ht.parent q old hmem)
    · exact hkept _ (by rwa [List.dropLast_concat])

theorem map_fst_putEntry {entries : List (List String × Entry)}
    (h : (entries.lookup place).isSome) :
    (put.putEntry place e entries).map (·.1) = entries.map (·.1) := by
  induction entries with
  | nil => cases h
  | cons entry rest ih =>
      obtain ⟨p, old⟩ := entry
      by_cases hp : p = place
      · simp [put.putEntry, hp]
      · have hne : (place == p) = false := beq_eq_false_iff_ne.mpr (Ne.symm hp)
        rw [List.lookup_cons, hne] at h
        simp [put.putEntry, hp, ih h]

/-- A file may be written over. -/
theorem WellFormed.put_over (ht : t.WellFormed) {old content : Content}
    (hold : t.get? q = some (.file old)) : (t.put q (.file content)).WellFormed := by
  have hne := place_ne_nil_of_file hold
  have hlookup : (t.entries.lookup q).isSome := by rw [lookup_eq_get? t hne, hold]; rfl
  have hplaces : (t.put q (.file content)).entries.map (·.1) = t.entries.map (·.1) :=
    map_fst_putEntry hlookup
  -- the places are the old ones
  have hentry : ∀ p x, (p, x) ∈ (t.put q (.file content)).entries → ∃ y, (p, y) ∈ t.entries := by
    intro p x hmem
    have hplace : p ∈ t.entries.map (·.1) := hplaces ▸ List.mem_map_of_mem (f := (·.1)) hmem
    obtain ⟨⟨_, y⟩, hold, rfl⟩ := List.mem_map.mp hplace
    exact ⟨y, hold⟩
  refine ⟨hplaces ▸ ht.nodup, fun p x hmem => ?_, fun p x hmem => ?_⟩
  · obtain ⟨y, hmem⟩ := hentry p x hmem
    exact ht.named p y hmem
  · obtain ⟨y, hmem⟩ := hentry p x hmem
    have hparent := ht.parent p y hmem
    rwa [get?_put_of_ne t hne _ fun heq => by simp [heq, hold] at hparent]

theorem slash_notMem_splitLast {p : Path} : '/' ∉ (splitLast p).2.toList := by
  obtain ⟨n, hparts⟩ := exists_parts_eq p
  have hmem : (splitLast p).2 ∈ parts p := by simp [hparts]
  rw [parts_eq] at hmem
  obtain ⟨piece, hpiece, heq⟩ := List.mem_map.mp hmem
  intro hslash
  rw [← heq, String.toList_ofList] at hslash
  simpa using ((Text.mem_pieces_iff _ _ _).mp ⟨piece, hpiece, hslash⟩).2

/-- Where the last name of a path is missing, something may be put. -/
theorem WellFormed.put_splitLast (ht : t.WellFormed) {p : Path}
    (hplace : t.walk (splitLast p).1 = .ok place)
    (hstep : t.step place (splitLast p).2 = .error .notFound) (e : Entry) :
    (t.put (place ++ [(splitLast p).2]) e).WellFormed := by
  obtain ⟨habsent, hfound⟩ := step_eq_notFound (stands_of_walk hplace) hstep
  obtain ⟨hdirectory, hcase⟩ := step_eq_ok (hfound .directory)
  rw [get?_put_of_ne t (by simp) _ (by simp)] at hdirectory
  have hname : IsName (splitLast p).2 := by
    rcases hcase with ⟨-, heq | heq⟩ | ⟨hname, -⟩
    · exact absurd (congrArg List.length heq) (by simp)
    · have hlength := congrArg List.length heq
      simp only [List.length_append, List.length_singleton, List.length_dropLast] at hlength
      omega
    · exact hname
  exact ht.put_absent hdirectory ⟨slash_notMem_splitLast, hname⟩ habsent

theorem WellFormed.makeDirectory (ht : t.WellFormed) {p : Path} (h : t.makeDirectory p = .ok t') :
    t'.WellFormed := by
  rw [FileTree.makeDirectory, Fallible.bind_eq_ok_iff] at h
  obtain ⟨⟨⟩, -, h⟩ := h
  obtain ⟨place, hplace, h⟩ := Fallible.bind_eq_ok_iff.mp h
  split at h
  · cases h
  · rename_i hstep
    obtain rfl := Except.ok.inj h
    exact ht.put_splitLast hplace hstep .directory
  · cases h

theorem WellFormed.write (ht : t.WellFormed) {p : Path} {content : Content}
    (h : t.write p content = .ok t') : t'.WellFormed := by
  rw [FileTree.write, Fallible.bind_eq_ok_iff] at h
  obtain ⟨⟨⟩, -, h⟩ := h
  obtain ⟨place, hplace, h⟩ := Fallible.bind_eq_ok_iff.mp h
  split at h
  · rename_i hstep
    split at h
    · cases h
    · obtain rfl := Except.ok.inj h
      exact ht.put_splitLast hplace hstep (.file content)
  · cases h
  · split at h
    · rename_i hold
      split at h
      · cases h
      · obtain rfl := Except.ok.inj h
        exact ht.put_over hold
    · cases h

end Operations

end ServiceGen.FileTree

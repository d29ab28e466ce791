import Mathlib.Data.List.Basic
import ServiceGen.SortedMap

/-!
The entries of a sorted map are in strictly ascending order of their keys, and entries in that
order are the entries of their map.
-/

namespace ServiceGen.SortedMap

universe u v

open Std

variable {K : Type u} {V : Type v} [Ord K]

/-- The keys strictly ascend. -/
def Ascending (entries : List (K × V)) : Prop :=
  entries.Pairwise fun a b => compare a.1 b.1 = .lt

instance (entries : List (K × V)) : Decidable (Ascending entries) :=
  inferInstanceAs (Decidable (List.Pairwise _ _))

theorem mem_alterEntry_const [LawfulEqOrd K] {key : K} {value : V} {entries : List (K × V)}
    {entry : K × V} (hentry : entry ∈ alterEntry key (fun _ => value) entries) :
    entry = (key, value) ∨ entry ∈ entries := by
  induction entries with
  | nil => exact .inl (by simpa [alterEntry] using hentry)
  | cons head rest ih =>
      obtain ⟨k, v⟩ := head
      rw [alterEntry] at hentry
      split at hentry
      · exact List.mem_cons.mp hentry
      · rename_i heq
        rcases List.mem_cons.mp hentry with rfl | hrest
        · exact .inl (by rw [LawfulEqOrd.eq_of_compare heq])
        · exact .inr (List.mem_cons_of_mem _ hrest)
      · rcases List.mem_cons.mp hentry with rfl | hrest
        · exact .inr List.mem_cons_self
        · exact (ih hrest).imp_right (List.mem_cons_of_mem _)

/-- Altering the value under a key brings in no other key. -/
theorem mem_alterEntry [LawfulEqOrd K] {key : K} {f : Option V → V} {entries : List (K × V)}
    {entry : K × V} (hentry : entry ∈ alterEntry key f entries) :
    entry.1 = key ∨ entry ∈ entries := by
  induction entries with
  | nil =>
      obtain rfl := List.mem_singleton.mp hentry
      exact .inl rfl
  | cons head rest ih =>
      obtain ⟨k, v⟩ := head
      rw [alterEntry] at hentry
      split at hentry
      · rcases List.mem_cons.mp hentry with rfl | hold
        · exact .inl rfl
        · exact .inr hold
      · rename_i heq
        rcases List.mem_cons.mp hentry with rfl | hrest
        · exact .inl (LawfulEqOrd.eq_of_compare heq).symm
        · exact .inr (List.mem_cons_of_mem _ hrest)
      · rcases List.mem_cons.mp hentry with rfl | hrest
        · exact .inr List.mem_cons_self
        · exact (ih hrest).imp_right (List.mem_cons_of_mem _)

/-- What holds of every value, and of the altered value whether it is new or not, holds of every value
afterwards. -/
theorem forall_mem_alterEntry (holds : V → Prop) {key : K} {f : Option V → V}
    (hnew : holds (f none)) (hold : ∀ value, holds value → holds (f (some value)))
    {entries : List (K × V)} (h : ∀ entry ∈ entries, holds entry.2) :
    ∀ entry ∈ alterEntry key f entries, holds entry.2 := by
  induction entries with
  | nil => exact List.forall_mem_singleton.mpr hnew
  | cons head rest ih =>
      obtain ⟨k, v⟩ := head
      obtain ⟨hhead, hrest⟩ := List.forall_mem_cons.mp h
      rw [alterEntry]
      split
      · exact List.forall_mem_cons.mpr ⟨hnew, h⟩
      · exact List.forall_mem_cons.mpr ⟨hold v hhead, hrest⟩
      · exact List.forall_mem_cons.mpr ⟨hhead, ih hrest⟩

/-- A key before the first one comes before all of them. -/
theorem Ascending.forall_lt [TransOrd K] {head : K × V} {rest : List (K × V)}
    (h : Ascending (head :: rest)) {key : K} (hlt : Ord.compare key head.1 = .lt) :
    ∀ entry ∈ head :: rest, Ord.compare key entry.1 = .lt := by
  intro entry hentry
  rcases List.mem_cons.mp hentry with rfl | hentry
  · exact hlt
  · exact TransCmp.lt_trans hlt ((List.pairwise_cons.mp h).1 entry hentry)

theorem Ascending.alter [TransOrd K] [LawfulEqOrd K] {entries : List (K × V)}
    (h : Ascending entries) (key : K) (f : Option V → V) :
    Ascending (alterEntry key f entries) := by
  induction entries with
  | nil => exact List.pairwise_singleton _ _
  | cons head rest ih =>
      obtain ⟨k, v⟩ := head
      obtain ⟨hhead, hrest⟩ := List.pairwise_cons.mp h
      rw [alterEntry]
      split
      · rename_i hlt
        exact List.pairwise_cons.mpr ⟨h.forall_lt hlt, h⟩
      · exact List.pairwise_cons.mpr ⟨hhead, hrest⟩
      · rename_i hgt
        refine List.pairwise_cons.mpr ⟨fun entry hentry => ?_, ih hrest⟩
        rcases mem_alterEntry hentry with heq | hentry
        · rw [heq]
          exact OrientedCmp.gt_iff_lt.mp hgt
        · exact hhead entry hentry

theorem Ascending.insert [TransOrd K] [LawfulEqOrd K] {entries : List (K × V)}
    (h : Ascending entries) (key : K) (value : V) :
    Ascending (alterEntry key (fun _ => value) entries) :=
  h.alter key _

theorem exists_mem_of_get? {m : SortedMap K V} {key : K} {value : V}
    (hvalue : m.get? key = some value) : ∃ entry ∈ m.entries, entry.2 = value := by
  obtain ⟨entry, hfind, rfl⟩ := Option.map_eq_some_iff.mp hvalue
  exact ⟨entry, List.mem_of_find?_eq_some hfind, rfl⟩

/-- The entries are what is found under their keys. -/
theorem mem_entries_iff [OrientedOrd K] [LawfulEqOrd K] {m : SortedMap K V}
    (h : Ascending m.entries) {key : K} {value : V} :
    (key, value) ∈ m.entries ↔ m.get? key = some value := by
  obtain ⟨entries⟩ := m
  rw [get?]
  induction entries with
  | nil => simp
  | cons head rest ih =>
      obtain ⟨k, v⟩ := head
      obtain ⟨hhead, hrest⟩ := List.pairwise_cons.mp h
      have hrest := ih hrest
      rw [List.mem_cons, List.find?_cons, Prod.mk.injEq]
      by_cases hkey : key = k
      · subst hkey
        have hnot : (key, value) ∉ rest := fun hmem => by
          have hself : Ord.compare key key = .eq := ReflCmp.compare_self
          cases hself.symm.trans (hhead _ hmem)
        simp [hnot, eq_comm]
      · have hne : (Ord.compare key k == .eq) = false := by simpa using hkey
        simp only [hne]
        simp [hkey, hrest]

/-- The altered map has the new value under the key, and what it had under the others. -/
theorem get?_alter [TransOrd K] [LawfulEqOrd K] [DecidableEq K] {m : SortedMap K V}
    (h : Ascending m.entries) (key other : K) (f : Option V → V) :
    (m.alter key f).get? other =
      if other = key then some (f (m.get? key)) else m.get? other := by
  obtain ⟨entries⟩ := m
  simp only [get?, SortedMap.alter]
  induction entries with
  | nil => by_cases hother : other = key <;> simp [alterEntry, hother]
  | cons head rest ih =>
      obtain ⟨k, v⟩ := head
      obtain ⟨hhead, hrest⟩ := List.pairwise_cons.mp h
      have hrest := ih hrest
      rw [alterEntry]
      split
      · rename_i hlt
        -- the key comes before all others, so nothing was found under it
        have hnone : ((k, v) :: rest).find? (fun entry => Ord.compare key entry.1 == .eq) = none :=
          List.find?_eq_none.mpr fun entry hentry => by simp [h.forall_lt hlt entry hentry]
        by_cases hother : other = key
        · subst hother
          simp [hnone]
        · simp [hother]
      · rename_i heq
        obtain rfl := LawfulEqOrd.eq_of_compare heq
        by_cases hother : other = key <;> simp [hother]
      · rename_i hgt
        have hne : (Ord.compare key k == .eq) = false := by rw [hgt]; rfl
        rw [List.find?_cons, List.find?_cons, List.find?_cons]
        simp only [hne]
        by_cases hother : other = k
        · subst hother
          have hkey : ¬ other = key := fun heq => by simp [heq] at hne
          simp [hkey]
        · have hfalse : (Ord.compare other k == .eq) = false := by simpa using hother
          simp only [hfalse]
          exact hrest

theorem ascending_foldl_insert [TransOrd K] [LawfulEqOrd K] (entries : List (K × V))
    {m : SortedMap K V} (hm : Ascending m.entries) :
    Ascending (entries.foldl (fun m (key, value) => m.insert key value) m).entries := by
  induction entries generalizing m with
  | nil => exact hm
  | cons entry rest ih => exact ih (hm.insert entry.1 entry.2)

theorem mem_foldl_insert [LawfulEqOrd K] {entries : List (K × V)} {m : SortedMap K V}
    {entry : K × V}
    (hentry : entry ∈ (entries.foldl (fun m (key, value) => m.insert key value) m).entries) :
    entry ∈ m.entries ∨ entry ∈ entries := by
  induction entries generalizing m with
  | nil => exact .inl hentry
  | cons head rest ih =>
      rcases ih hentry with hinsert | hrest
      · rcases mem_alterEntry_const hinsert with rfl | hm
        · exact .inr List.mem_cons_self
        · exact .inl hm
      · exact .inr (List.mem_cons_of_mem head hrest)

theorem ascending_ofList [TransOrd K] [LawfulEqOrd K] (entries : List (K × V)) :
    Ascending (ofList entries).entries :=
  ascending_foldl_insert entries List.Pairwise.nil

theorem mem_of_mem_ofList [LawfulEqOrd K] {entries : List (K × V)} {entry : K × V}
    (hentry : entry ∈ (ofList entries).entries) : entry ∈ entries := by
  rcases mem_foldl_insert hentry with hempty | hmem
  · cases hempty
  · exact hmem

theorem mem_keys_alter [LawfulEqOrd K] {m : SortedMap K V} {key other : K} {f : Option V → V} :
    other ∈ (m.alter key f).keys ↔ other = key ∨ other ∈ m.keys := by
  obtain ⟨entries⟩ := m
  change other ∈ (alterEntry key f entries).map (·.1) ↔ other = key ∨ other ∈ entries.map (·.1)
  induction entries with
  | nil => simp [alterEntry]
  | cons head rest ih =>
      obtain ⟨k, v⟩ := head
      rw [alterEntry]
      split
      · simp
      · rename_i heq
        obtain rfl := LawfulEqOrd.eq_of_compare heq
        simp
      · rw [List.map_cons, List.mem_cons, ih, List.map_cons, List.mem_cons]
        exact or_left_comm

theorem mem_keys_foldl_insert [LawfulEqOrd K] {entries : List (K × V)} {m : SortedMap K V}
    {key : K} :
    key ∈ (entries.foldl (fun m (key, value) => m.insert key value) m).keys ↔
      key ∈ m.keys ∨ key ∈ entries.map (·.1) := by
  induction entries generalizing m with
  | nil => simp
  | cons entry rest ih =>
      have hinsert : key ∈ (m.insert entry.1 entry.2).keys ↔ key = entry.1 ∨ key ∈ m.keys :=
        mem_keys_alter
      rw [List.foldl_cons, ih, hinsert, List.map_cons, List.mem_cons, or_assoc, or_left_comm]

/-- The keys are those of the entries. -/
theorem mem_keys_ofList [LawfulEqOrd K] {entries : List (K × V)} {key : K} :
    key ∈ (ofList entries).keys ↔ key ∈ entries.map (·.1) := by
  rw [ofList, mem_keys_foldl_insert]
  exact or_iff_right List.not_mem_nil

theorem alterEntry_of_forall_lt [OrientedOrd K] {key : K} {f : Option V → V}
    {entries : List (K × V)} (h : ∀ entry ∈ entries, compare entry.1 key = .lt) :
    alterEntry key f entries = entries ++ [(key, f none)] := by
  induction entries with
  | nil => rfl
  | cons head rest ih =>
      obtain ⟨k, v⟩ := head
      rw [List.forall_mem_cons] at h
      have hgt : compare key k = .gt := OrientedCmp.gt_iff_lt.mpr h.1
      rw [alterEntry, hgt, ih h.2, List.cons_append]

theorem entries_foldl_insert [OrientedOrd K] {entries : List (K × V)} {m : SortedMap K V}
    (h : Ascending (m.entries ++ entries)) :
    (entries.foldl (fun m (key, value) => m.insert key value) m).entries =
      m.entries ++ entries := by
  induction entries generalizing m with
  | nil => simp
  | cons entry rest ih =>
      have hlast : ∀ e ∈ m.entries, compare e.1 entry.1 = .lt := fun e he =>
        (List.pairwise_append.mp h).2.2 e he entry List.mem_cons_self
      have hinsert : (m.insert entry.1 entry.2).entries = m.entries ++ [entry] :=
        alterEntry_of_forall_lt hlast
      rw [List.foldl_cons, ih (by simpa [hinsert] using h), hinsert]
      simp

theorem ofList_entries [OrientedOrd K] {m : SortedMap K V} (h : Ascending m.entries) :
    ofList m.entries = m := by
  have hentries := entries_foldl_insert (m := empty) (by simpa [empty] using h)
  exact congrArg SortedMap.mk (by simpa [empty] using hentries)

theorem Ascending.nodup [OrientedOrd K] {entries : List (K × V)} (h : Ascending entries) :
    (entries.map (·.1)).Nodup := by
  refine List.pairwise_map.mpr (h.imp fun {a b} hlt heq => ?_)
  have hself : compare b.1 b.1 = .eq := ReflCmp.compare_self
  rw [heq, hself] at hlt
  cases hlt

end ServiceGen.SortedMap

import Mathlib.Data.List.Induction
import ServiceGen.OrderedMap
import ServiceGen.Proofs.Repeats

/-!
Maps built from lists of entries, all at once (`ofList`) or by insertions that answer with what they
replace (`exchangeAll`).
-/

namespace ServiceGen.OrderedMap

universe u

variable {V : Type u}

/-- An entry under a new name comes last. -/
theorem insertEntry_of_notMem {key : String} {entries : List (String × V)}
    (hkey : key ∉ entries.map (·.1)) (value : V) :
    insertEntry key value entries = entries ++ [(key, value)] := by
  induction entries with
  | nil => rfl
  | cons entry rest ih =>
      simp only [List.map_cons, List.mem_cons, not_or] at hkey
      have hne : ¬ entry.1 = key := fun heq => hkey.1 heq.symm
      simp [insertEntry, hne, ih hkey.2]

theorem entries_foldl_insert (entries : List (String × V)) (m : OrderedMap V)
    (hnodup : (m.keys ++ entries.map (·.1)).Nodup) :
    (entries.foldl (fun m (key, value) => m.insert key value) m).entries =
      m.entries ++ entries := by
  induction entries generalizing m with
  | nil => simp
  | cons entry rest ih =>
      obtain ⟨key, value⟩ := entry
      have hkey : key ∉ m.keys := by
        rw [List.map_cons, List.nodup_append] at hnodup
        exact fun hmem => hnodup.2.2 key hmem key List.mem_cons_self rfl
      have hinsert : (m.insert key value).entries = m.entries ++ [(key, value)] :=
        insertEntry_of_notMem hkey value
      have hkeys : (m.insert key value).keys = m.keys ++ [key] := by
        simp [keys, hinsert]
      rw [List.foldl_cons, ih (m.insert key value) (by simpa [hkeys] using hnodup), hinsert]
      simp

/-- Entries with names of their own are the entries of their map. -/
theorem entries_ofList {entries : List (String × V)}
    (hnodup : (entries.map (·.1)).Nodup) : (ofList entries).entries = entries := by
  have h := entries_foldl_insert entries empty (by simpa using hnodup)
  simpa [ofList, empty] using h

/-- Inserting brings in no entry but the new one. -/
theorem mem_insertEntry {key : String} {value : V} {entries : List (String × V)}
    {entry : String × V} (hentry : entry ∈ insertEntry key value entries) :
    entry = (key, value) ∨ entry ∈ entries := by
  induction entries with
  | nil => exact Or.inl (by simpa [insertEntry] using hentry)
  | cons head rest ih =>
      by_cases hkey : head.1 = key
      · simp only [insertEntry, hkey, ↓reduceIte, List.mem_cons] at hentry
        rcases hentry with hentry | hentry
        · exact Or.inl hentry
        · exact Or.inr (List.mem_cons_of_mem head hentry)
      · simp only [insertEntry, hkey, ↓reduceIte, List.mem_cons] at hentry
        rcases hentry with hentry | hentry
        · exact Or.inr (hentry ▸ List.mem_cons_self)
        · rcases ih hentry with hnew | hold
          · exact Or.inl hnew
          · exact Or.inr (List.mem_cons_of_mem head hold)

/-- What is found under a name is one of the values. -/
theorem mem_values_of_get? {m : OrderedMap V} {key : String} {value : V}
    (hvalue : m.get? key = some value) : value ∈ m.values := by
  obtain ⟨entries⟩ := m
  rw [get?] at hvalue
  rw [values]
  induction entries with
  | nil => simp [lookupEntry] at hvalue
  | cons entry rest ih =>
      by_cases hkey : entry.1 = key
      · simp only [lookupEntry, hkey, ↓reduceIte, Option.some.injEq] at hvalue
        exact hvalue ▸ List.mem_cons_self
      · simp only [lookupEntry, hkey, ↓reduceIte] at hvalue
        exact List.mem_cons_of_mem entry.2 (ih hvalue)

theorem nodup_keys_insert {m : OrderedMap V} (hm : m.keys.Nodup) (key : String) (value : V) :
    (m.insert key value).keys.Nodup := by
  rw [keys_insert]
  split
  · exact hm
  · rename_i hkey
    refine List.nodup_append.mpr ⟨hm, by simp, fun k hk k' hk' heq => hkey ?_⟩
    rw [← List.mem_singleton.mp hk', ← heq]
    exact hk

theorem nodup_keys_foldl_insert (entries : List (String × V)) {m : OrderedMap V}
    (hm : m.keys.Nodup) :
    (entries.foldl (fun m (key, value) => m.insert key value) m).keys.Nodup := by
  induction entries generalizing m with
  | nil => exact hm
  | cons entry rest ih => exact ih (nodup_keys_insert hm entry.1 entry.2)

/-- Whatever the entries are, a map that is built from them has each name once. -/
theorem nodup_keys_ofList (entries : List (String × V)) : (ofList entries).keys.Nodup :=
  nodup_keys_foldl_insert entries List.nodup_nil

theorem mem_keys_insert {m : OrderedMap V} {key other : String} {value : V} :
    other ∈ (m.insert key value).keys ↔ other ∈ m.keys ∨ other = key := by
  rw [keys_insert]
  split
  · rename_i hkey
    exact ⟨.inl, fun h => h.elim id fun heq => heq ▸ hkey⟩
  · simp

theorem mem_keys_foldl_insert {entries : List (String × V)} {m : OrderedMap V} {key : String} :
    key ∈ (entries.foldl (fun m (key, value) => m.insert key value) m).keys ↔
      key ∈ m.keys ∨ key ∈ entries.map (·.1) := by
  induction entries generalizing m with
  | nil => simp
  | cons entry rest ih => simp [ih, mem_keys_insert, or_assoc]

theorem mem_keys_ofList {entries : List (String × V)} {key : String} :
    key ∈ (ofList entries).keys ↔ key ∈ entries.map (·.1) := by
  rw [ofList, mem_keys_foldl_insert]
  simp

theorem mem_foldl_insert {entries : List (String × V)} {m : OrderedMap V} {entry : String × V}
    (hentry : entry ∈ (entries.foldl (fun m (key, value) => m.insert key value) m).entries) :
    entry ∈ m.entries ∨ entry ∈ entries := by
  induction entries generalizing m with
  | nil => exact .inl hentry
  | cons head rest ih =>
      rcases ih hentry with hinsert | hrest
      · rcases mem_insertEntry hinsert with rfl | hm
        · exact .inr List.mem_cons_self
        · exact .inl hm
      · exact .inr (List.mem_cons_of_mem head hrest)

/-- A map that is built from entries has no others. -/
theorem mem_of_mem_ofList {entries : List (String × V)} {entry : String × V}
    (hentry : entry ∈ (ofList entries).entries) : entry ∈ entries :=
  (mem_foldl_insert hentry).resolve_left nofun

theorem ofList_concat (entries : List (String × V)) (entry : String × V) :
    ofList (entries ++ [entry]) = (ofList entries).insert entry.1 entry.2 := by
  rw [ofList, List.foldl_append]
  rfl

/-- The names of a map that is built from entries, in the order in which they first come. -/
theorem keys_ofList (entries : List (String × V)) :
    (ofList entries).keys = (entries.map (·.1)).eraseDups := by
  induction entries using List.reverseRecOn with
  | nil => rfl
  | append_singleton entries entry ih =>
      rw [ofList_concat, keys_insert, List.map_append, List.map_singleton, eraseDups_concat, ih]
      simp only [← ih, mem_keys_ofList]

/-- Under a name is its last value. -/
theorem get?_ofList (entries : List (String × V)) (key : String) :
    (ofList entries).get? key = entries.reverse.lookup key := by
  induction entries using List.reverseRecOn with
  | nil => rfl
  | append_singleton entries entry ih =>
      rw [ofList_concat, get?_insert, ih, List.reverse_append, List.reverse_singleton,
        List.singleton_append, List.lookup_cons]
      split
      · rename_i hkey
        simp [hkey]
      · rename_i hkey
        rw [beq_eq_false_iff_ne.mpr hkey]

/-- Exchanges one after the other: what they answer, and the map behind them. -/
def exchangeAll (m : OrderedMap V) : List (String × V) → List (Option V) × OrderedMap V
  | [] => ([], m)
  | (key, value) :: rest =>
      let (old, m) := m.exchange key value
      let (olds, m) := exchangeAll m rest
      (old :: olds, m)

theorem exchangeAll_cons (m : OrderedMap V) (entry : String × V) (rest : List (String × V)) :
    m.exchangeAll (entry :: rest) =
      (m.get? entry.1 :: ((m.insert entry.1 entry.2).exchangeAll rest).1,
        ((m.insert entry.1 entry.2).exchangeAll rest).2) := by
  obtain ⟨key, value⟩ := entry
  rw [exchangeAll, exchange_eq]

theorem exchangeAll_snd (entries : List (String × V)) (m : OrderedMap V) :
    (m.exchangeAll entries).2 = entries.foldl (fun m (key, value) => m.insert key value) m := by
  induction entries generalizing m with
  | nil => rfl
  | cons entry rest ih => rw [exchangeAll_cons, ih, List.foldl_cons]

/-- An exchange answers with what those before it left under its name. -/
theorem getElem?_exchangeAll_fst (entries : List (String × V)) (m : OrderedMap V) (i : Nat) :
    (m.exchangeAll entries).1[i]? = entries[i]?.map fun entry =>
      ((entries.take i).foldl (fun m (key, value) => m.insert key value) m).get? entry.1 := by
  induction entries generalizing m i with
  | nil => rfl
  | cons entry rest ih =>
      rw [exchangeAll_cons]
      cases i with
      | zero => rfl
      | succ i =>
          rw [List.getElem?_cons_succ, List.getElem?_cons_succ, ih, List.take_succ_cons,
            List.foldl_cons]

/-- A map that was empty before some insertions, with their answers: it has each name once, in the
order in which the names first come, and under each name the last value; an insertion answers with
the last value that came under its name before. -/
structure KeepsInsertions (insertions : List (String × V))
    (run : List (Option V) × OrderedMap V) : Prop where
  nodup : run.2.keys.Nodup
  keys : run.2.keys = (insertions.map (·.1)).eraseDups
  get? : ∀ key, run.2.get? key = insertions.reverse.lookup key
  answers : ∀ i, run.1[i]? = insertions[i]?.map fun entry =>
    (insertions.take i).reverse.lookup entry.1

theorem exchangeAll_empty_snd (insertions : List (String × V)) :
    (empty.exchangeAll insertions).2 = ofList insertions :=
  exchangeAll_snd insertions empty

theorem keepsInsertions_exchangeAll (insertions : List (String × V)) :
    KeepsInsertions insertions (empty.exchangeAll insertions) where
  nodup := exchangeAll_empty_snd insertions ▸ nodup_keys_ofList insertions
  keys := exchangeAll_empty_snd insertions ▸ keys_ofList insertions
  get? key := exchangeAll_empty_snd insertions ▸ get?_ofList insertions key
  answers i := by
    rw [getElem?_exchangeAll_fst]
    exact congrArg (insertions[i]?.map ·) (funext fun entry => get?_ofList _ entry.1)

end ServiceGen.OrderedMap

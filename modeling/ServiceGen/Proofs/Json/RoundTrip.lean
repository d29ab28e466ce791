import ServiceGen.Json.Reading
import ServiceGen.Proofs.Fallible
import ServiceGen.Proofs.Json.UniqueNames
import ServiceGen.Proofs.SortedMap

/-!
Readers that read back what is written for the data that they give.  A part is plain when it is
offered for a value without repeated names; the statements are about what is read from such parts.
-/

namespace ServiceGen

universe u

open ServiceGen.Number

namespace Reading

variable {α β : Type}

theorem map_eq_ok_iff {x : Reading α} {f : α → β} {b : β} :
    x.map f = .ok b ↔ ∃ a, x = .ok a ∧ f a = b := by
  cases x <;> simp [Except.map]

theorem bind_finish (x : Reading α) : (x >>= fun a => Part.finish true a) = x := by
  cases x <;> rfl

variable {P : Type u}

theorem mem_of_mapM_eq_ok {read : P → Reading α} {items : List P} {as : List α}
    (hread : items.mapM read = .ok as) : ∀ a ∈ as, ∃ item ∈ items, read item = .ok a :=
  fun _ ha => exists_left_of_forall₂ (Fallible.mapM_eq_ok_iff.mp hread) ha

theorem mapM_map_eq_ok {read : P → Reading α} {mk : α → P} {as : List α}
    (hread : ∀ a ∈ as, read (mk a) = .ok a) : (as.map mk).mapM read = .ok as := by
  rw [Fallible.mapM_eq_ok_iff, List.forall₂_map_left_iff, List.forall₂_same]
  exact hread

end Reading

namespace Part

/-- The part that a value is offered as. -/
def offered (held : Bool) (v : Json) : Part :=
  ⟨.ofJson v, held⟩

/-- The part is offered for a value in which no object has a name twice. -/
def Plain (p : Part) : Prop :=
  ∃ v held, v.UniqueNames ∧ p = offered held v

theorem plain_offered (held : Bool) {v : Json} (hv : v.UniqueNames) : (offered held v).Plain :=
  ⟨v, held, hv, rfl⟩

@[simp] theorem readWritten_offered (held : Bool) (v : Json) :
    (offered held v).readWritten = .ok v := by
  simp [readWritten, offered, Json.Tree.value?_ofJson]

theorem readAny_offered (held : Bool) {v : Json} (hv : v.UniqueNames) :
    (offered held v).readAny = .ok v := by
  rw [readAny, readWritten_offered]
  exact congrArg Except.ok (Json.collapse_eq v hv)

theorem hold_offered (held : Bool) (v : Json) :
    (offered held v).hold = .ok (offered true v) := by
  cases held
  · rw [hold, readWritten_offered]
    rfl
  · rfl

end Part

/-- What is written for `a` has no name twice and is read as `a`, whether it is held or not. -/
structure Recovers {α : Type} (read : Part → Reading α) (write : α → Json) (a : α) : Prop where
  unique : (write a).UniqueNames
  reads : ∀ held, read (.offered held (write a)) = .ok a

/-- Whatever is read from a plain part is recovered, and only what is read from `null` is written
as `null`. -/
structure RoundTrips {α : Type} (read : Part → Reading α) (write : α → Json) : Prop where
  recovers : ∀ {p a}, p.Plain → read p = .ok a → Recovers read write a
  null_of_null : ∀ {p a}, p.Plain → read p = .ok a → write a = .null → p.tree = .null

section Values

theorem recovers_text (s : String) : Recovers Part.readText .str s :=
  ⟨Json.uniqueNames_str s, fun _ => rfl⟩

theorem roundTrips_text : RoundTrips Part.readText .str :=
  ⟨fun _ _ => recovers_text _, fun _ _ => nofun⟩

theorem roundTrips_bool : RoundTrips Part.readBool .bool :=
  ⟨fun _ _ => ⟨Json.uniqueNames_bool _, fun _ => rfl⟩, fun _ _ => nofun⟩

theorem roundTrips_real : RoundTrips Part.readReal (fun x : Binary64 => .num (.real x)) :=
  ⟨fun _ _ => ⟨Json.uniqueNames_num _, fun _ => rfl⟩, fun _ _ => nofun⟩

theorem lt_of_readNat {bound n : Nat} {p : Part} (hread : p.readNat bound = .ok n) :
    n < bound := by
  unfold Part.readNat at hread
  split at hread
  · split at hread
    · rename_i hbound
      exact Except.ok.inj hread ▸ hbound.2
    · cases hread
  · cases hread

theorem roundTrips_nat (bound : Nat) :
    RoundTrips (Part.readNat bound) (fun n => .num (.int n)) where
  recovers _ hread := ⟨Json.uniqueNames_num _, fun _ => by
    simp [Part.readNat, Part.offered, Json.Tree.ofJson, lt_of_readNat hread]⟩
  null_of_null _ _ := nofun

theorem roundTrips_any : RoundTrips Part.readAny id where
  recovers hplain hread := by
    obtain ⟨v, held, hv, rfl⟩ := hplain
    rw [Part.readAny_offered held hv] at hread
    cases hread
    exact ⟨hv, fun held => Part.readAny_offered held hv⟩
  null_of_null hplain hread hnull := by
    obtain ⟨v, held, hv, rfl⟩ := hplain
    rw [Part.readAny_offered held hv] at hread
    cases hread
    exact congrArg Json.Tree.ofJson hnull

theorem recovers_word {α : Type} {words : List (String × α)} {word : α → String} {a : α}
    (hword : words.lookup (word a) = some a) :
    Recovers (Part.readWord words) (fun a => .str (word a)) a :=
  ⟨Json.uniqueNames_str _, fun _ => by
    simp [Part.readWord, Part.offered, Json.Tree.ofJson, hword]⟩

/-- A vocabulary in which every value has a word that is read as it. -/
theorem roundTrips_word {α : Type} {words : List (String × α)} {word : α → String}
    (hwords : ∀ a, words.lookup (word a) = some a) :
    RoundTrips (Part.readWord words) (fun a => .str (word a)) :=
  ⟨fun _ _ => recovers_word (hwords _), fun _ _ => nofun⟩

end Values

section Containers

variable {α : Type} {read : Part → Reading α} {write : α → Json}

theorem readOptional_eq_ok {p : Part} {o : Option α} (hread : p.readOptional read = .ok o) :
    (o = none ∧ p.tree = .null) ∨ ∃ a, o = some a ∧ p.tree ≠ .null ∧ read p = .ok a := by
  unfold Part.readOptional at hread
  split at hread
  · rename_i htree
    exact .inl ⟨(Except.ok.inj hread).symm, htree⟩
  · rename_i htree
    obtain ⟨a, ha, rfl⟩ := Reading.map_eq_ok_iff.mp hread
    exact .inr ⟨a, rfl, htree, ha⟩

theorem readOptional_offered {held : Bool} {v : Json} {a : α} (hnull : v ≠ .null)
    (hread : read (.offered held v) = .ok a) :
    (Part.offered held v).readOptional read = .ok (some a) := by
  cases v with
  | null => exact absurd rfl hnull
  | _ => exact congrArg (Except.map some) hread

/-- What is present is recovered and is not written as `null`. -/
theorem RoundTrips.recovers_some (h : RoundTrips read write) {p : Part} {a : α} (hp : p.Plain)
    (hread : p.readOptional read = .ok (some a)) :
    Recovers read write a ∧ write a ≠ .null := by
  rcases readOptional_eq_ok hread with ⟨hnone, -⟩ | ⟨b, hsome, htree, hb⟩
  · cases hnone
  · cases hsome
    exact ⟨h.recovers hp hb, fun hnull => htree (h.null_of_null hp hb hnull)⟩

theorem RoundTrips.optional (h : RoundTrips read write) :
    RoundTrips (Part.readOptional read) (fun o => (o.map write).getD .null) where
  recovers {p o} hp hread := by
    cases o with
    | none => exact ⟨Json.uniqueNames_null, fun _ => rfl⟩
    | some a =>
        obtain ⟨ha, hnull⟩ := h.recovers_some hp hread
        exact ⟨ha.unique, fun held => readOptional_offered hnull (ha.reads held)⟩
  null_of_null {p o} hp hread hnull := by
    rcases readOptional_eq_ok hread with ⟨-, htree⟩ | ⟨a, rfl, -, -⟩
    · exact htree
    · exact absurd hnull (h.recovers_some hp hread).2

theorem readList_arr (held : Bool) (items : List Json) :
    (Part.offered held (.arr items)).readList read =
      (items.map (Part.offered held)).mapM read := by
  have hparts : (Json.Tree.ofItems items).mapM (fun item => read ⟨item, held⟩) =
      (items.map (Part.offered held)).mapM read := by
    rw [Json.Tree.ofItems_eq, List.mapM_map, List.mapM_map]
    rfl
  rw [← hparts, ← Reading.bind_finish (List.mapM _ _)]
  rfl

theorem RoundTrips.list (h : RoundTrips read write) :
    RoundTrips (Part.readList read) (fun as => .arr (as.map write)) where
  recovers {p as} hp hread := by
    obtain ⟨v, held, hv, rfl⟩ := hp
    have hitems : ∀ a ∈ as, Recovers read write a := by
      cases v with
      | arr items =>
          rw [readList_arr] at hread
          rw [Json.uniqueNames_arr] at hv
          intro a ha
          obtain ⟨part, hpart, hread⟩ := Reading.mem_of_mapM_eq_ok hread a ha
          obtain ⟨item, hitem, rfl⟩ := List.mem_map.mp hpart
          exact h.recovers (Part.plain_offered held (hv item hitem)) hread
      | _ => cases hread
    refine ⟨?_, fun held => ?_⟩
    · rw [Json.uniqueNames_arr]
      intro item hitem
      obtain ⟨a, ha, rfl⟩ := List.mem_map.mp hitem
      exact (hitems a ha).unique
    · rw [readList_arr, List.map_map]
      exact Reading.mapM_map_eq_ok fun a ha => (hitems a ha).reads held
  null_of_null _ _ := nofun

theorem recovers_noItems :
    Recovers (Part.readList read) (fun as => .arr (as.map write)) [] :=
  ⟨by simp, fun _ => rfl⟩

/-- What reading the entries of a map gives: the names as they are written, and under each name
what is read there. -/
theorem readEntries_eq_ok {P : Type u} {readP : P → Reading α} {entries : List (String × P)}
    {seen : List String} {as : List (String × α)}
    (hread : readEntries readP seen entries = .ok as) :
    as.map (·.1) = entries.map (·.1) ∧
      ∀ a ∈ as, ∃ entry ∈ entries, readP entry.2 = .ok a.2 := by
  induction entries generalizing seen as with
  | nil =>
      cases hread
      simp
  | cons entry rest ih =>
      rw [readEntries] at hread
      split at hread
      · cases hread
      · rename_i value hvalue
        split at hread
        · cases hread
        · obtain ⟨others, hothers, rfl⟩ := Reading.map_eq_ok_iff.mp hread
          obtain ⟨hnames, hvalues⟩ := ih hothers
          refine ⟨by simp [hnames], List.forall_mem_cons.mpr
            ⟨⟨entry, List.mem_cons_self, hvalue⟩, fun a ha => ?_⟩⟩
          obtain ⟨other, hother, hread⟩ := hvalues a ha
          exact ⟨other, List.mem_cons_of_mem entry hother, hread⟩

theorem readEntries_map_eq_ok {P : Type u} (readP : P → Reading α) (mk : α → P)
    {as : List (String × α)} (seen : List String) (hread : ∀ a ∈ as, readP (mk a.2) = .ok a.2)
    (hnodup : (as.map (·.1)).Nodup) (hseen : ∀ a ∈ as, a.1 ∉ seen) :
    readEntries readP seen (as.map fun a => (a.1, mk a.2)) = .ok as := by
  induction as generalizing seen with
  | nil => rfl
  | cons a rest ih =>
      rw [List.forall_mem_cons] at hread hseen
      rw [List.map_cons, List.nodup_cons] at hnodup
      have hrest : ∀ b ∈ rest, b.1 ∉ a.1 :: seen := by
        intro b hb hmem
        rcases List.mem_cons.mp hmem with heq | hmem
        · exact hnodup.1 (heq ▸ List.mem_map_of_mem hb)
        · exact hseen.2 b hb hmem
      rw [List.map_cons, readEntries, hread.1]
      simp only [hseen.1, if_false, ih (a.1 :: seen) hread.2 hnodup.2 hrest]
      rfl

theorem plain_of_mem {members : List (String × Json)} (hv : (Json.obj members).UniqueNames)
    {held : Bool} {entry : String × Part}
    (hentry : entry ∈ members.map fun m => (m.1, Part.offered held m.2)) : entry.2.Plain := by
  obtain ⟨member, hmember, rfl⟩ := List.mem_map.mp hentry
  exact Part.plain_offered held ((Json.uniqueNames_obj members).mp hv |>.2 member hmember)

theorem uniqueNames_map {as : List (String × α)} (hnodup : (as.map (·.1)).Nodup)
    (h : ∀ a ∈ as, (write a.2).UniqueNames) :
    (Json.obj (as.map fun a => (a.1, write a.2))).UniqueNames := by
  rw [Json.uniqueNames_obj, List.map_map]
  exact ⟨hnodup, fun member hmember => by
    obtain ⟨a, ha, rfl⟩ := List.mem_map.mp hmember
    exact h a ha⟩

/-- What is read under the names of an object is written under the same names, and is read again
as soon as each value is. -/
theorem readEntries_again {P : Type u} {readP : P → Reading α} {offer again : Json → P}
    {members : List (String × Json)} {as : List (String × α)}
    (hv : (Json.obj members).UniqueNames)
    (hvalues : ∀ m ∈ members, ∀ a, readP (offer m.2) = .ok a →
      (write a).UniqueNames ∧ readP (again (write a)) = .ok a)
    (hread : readEntries readP [] (members.map fun m => (m.1, offer m.2)) = .ok as) :
    (Json.obj (as.map fun a => (a.1, write a.2))).UniqueNames ∧
      readEntries readP [] ((as.map fun a => (a.1, write a.2)).map fun m => (m.1, again m.2)) =
        .ok as := by
  obtain ⟨hnames, hreads⟩ := readEntries_eq_ok hread
  have hnodup : (as.map (·.1)).Nodup := by
    rw [hnames, List.map_map]
    exact ((Json.uniqueNames_obj members).mp hv).1
  have hagain : ∀ a ∈ as, (write a.2).UniqueNames ∧ readP (again (write a.2)) = .ok a.2 := by
    intro a ha
    obtain ⟨entry, hentry, hread⟩ := hreads a ha
    obtain ⟨m, hm, rfl⟩ := List.mem_map.mp hentry
    exact hvalues m hm a.2 hread
  refine ⟨uniqueNames_map hnodup fun a ha => (hagain a ha).1, ?_⟩
  rw [List.map_map]
  exact readEntries_map_eq_ok readP (fun a => again (write a)) []
    (fun a ha => (hagain a ha).2) hnodup fun _ _ => List.not_mem_nil

theorem members_ofMembers (held : Bool) (members : List (String × Json)) :
    Part.members held (Json.Tree.ofMembers members) =
      members.map fun m => (m.1, Part.offered held m.2) := by
  simp [Part.members, Json.Tree.ofMembers_eq, Part.offered]

theorem readMap_complete (held : Bool) (members : List (Json.Name × Json.Tree)) :
    Part.readMap read ⟨.obj members true, held⟩ =
      (readEntries read [] (Part.members held members)).map .mk := by
  rw [← Reading.bind_finish (Except.map _ _)]
  cases hread : readEntries read [] (Part.members held members) <;>
    simp [Part.readMap, hread, Except.map, bind, Except.bind]

theorem readMap_obj (held : Bool) (members : List (String × Json)) :
    (Part.offered held (.obj members)).readMap read =
      (readEntries read [] (members.map fun m => (m.1, Part.offered held m.2))).map .mk := by
  rw [← members_ofMembers]
  exact readMap_complete held (Json.Tree.ofMembers members)

theorem RoundTrips.map (h : RoundTrips read write) :
    RoundTrips (Part.readMap read) (fun m => .obj (m.map write).entries) where
  recovers {p m} hp hread := by
    obtain ⟨v, held, hv, rfl⟩ := hp
    cases v with
    | obj members =>
        rw [readMap_obj] at hread
        obtain ⟨as, has, rfl⟩ := Reading.map_eq_ok_iff.mp hread
        have hagain := fun again => readEntries_again hv (fun member hmember a ha =>
          have hrecovers := h.recovers (Part.plain_offered held
            ((Json.uniqueNames_obj members).mp hv |>.2 member hmember)) ha
          ⟨hrecovers.unique, hrecovers.reads again⟩) has
        refine ⟨(hagain true).1, fun again => ?_⟩
        rw [readMap_obj]
        exact congrArg (Except.map OrderedMap.mk) (hagain again).2
    | _ => cases hread
  null_of_null _ _ := nofun

theorem recovers_noEntries :
    Recovers (Part.readMap read) (fun m => .obj (m.map write).entries) .empty :=
  ⟨by simp [OrderedMap.map, OrderedMap.empty], fun _ => rfl⟩

theorem readMembers_obj (held : Bool) (members : List (String × Json)) :
    (Part.offered held (.obj members)).readMembers read =
      (members.map fun m => (m.1, Part.offered held m.2)).mapM
        fun (name, q) => (read q).map (name, ·) := by
  rw [← members_ofMembers, ← Reading.bind_finish (List.mapM _ _)]
  rfl

/-- A map whose names are sorted is recovered when its values are. -/
theorem RoundTrips.sortedMap (h : RoundTrips read write) :
    RoundTrips (fun p => SortedMap.ofList <$> p.readMembers read)
      (fun m => .obj (m.map write).entries) where
  recovers {p m} hp hread := by
    obtain ⟨v, held, hv, rfl⟩ := hp
    obtain ⟨as, has, rfl⟩ := Reading.map_eq_ok_iff.mp hread
    have hvalues : ∀ a ∈ as, Recovers read write a.2 := by
      cases v with
      | obj members =>
          rw [readMembers_obj] at has
          intro a ha
          obtain ⟨entry, hentry, hread⟩ := Reading.mem_of_mapM_eq_ok has a ha
          obtain ⟨b, hb, rfl⟩ := Reading.map_eq_ok_iff.mp hread
          exact h.recovers (plain_of_mem hv hentry) hb
      | _ => cases has
    have hascending := SortedMap.ascending_ofList as
    refine ⟨uniqueNames_map hascending.nodup fun a ha =>
      (hvalues a (SortedMap.mem_of_mem_ofList ha)).unique, fun held => ?_⟩
    have hwritten : Part.readMembers read (.offered held
        (.obj ((SortedMap.ofList as).map write).entries)) = .ok (SortedMap.ofList as).entries := by
      rw [readMembers_obj, SortedMap.map, List.map_map]
      refine Reading.mapM_map_eq_ok fun a ha => ?_
      exact congrArg (Except.map (a.1, ·))
        ((hvalues a (SortedMap.mem_of_mem_ofList ha)).reads held)
    rw [hwritten]
    exact congrArg Except.ok (SortedMap.ofList_entries hascending)
  null_of_null {p m} _ _ := nofun

end Containers

end ServiceGen

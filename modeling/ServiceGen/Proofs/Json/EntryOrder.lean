import ServiceGen.Proofs.Json.RoundTrip
import ServiceGen.Proofs.Repeats

/-!
Maps keep their entries in order, whether these are inserted one after the other or read from an
object.  Inserting replaces what is there under a name; reading refuses a name that comes again.
The main statement is `OrderedMap.inserted_and_read_in_order`.
-/

namespace ServiceGen

universe u v

/-- When a value can be read under every name, the names decide: the first one that comes again is
refused, and without one the entries stand as they are written. -/
theorem readEntries_eq {P : Type u} {α : Type} {read : P → Reading α}
    {entries : List (String × P)} {values : List α}
    (hvalues : List.Forall₂ (fun entry value => read entry.2 = .ok value) entries values)
    (seen : List String) :
    readEntries read seen entries =
      match (repeatsAfter seen (entries.map (·.1))).head? with
      | none => .ok ((entries.map (·.1)).zip values)
      | some name => .error (.duplicateField name) := by
  induction hvalues generalizing seen with
  | nil => rfl
  | @cons entry value rest values hvalue _ ih =>
      rw [readEntries, hvalue, List.map_cons, repeatsAfter_cons]
      by_cases hseen : entry.1 ∈ seen
      · simp [hseen]
      · simp only [hseen, if_false, List.nil_append, ih]
        cases (repeatsAfter (entry.1 :: seen) (rest.map (·.1))).head? <;> rfl

theorem Json.Tree.memberValues?_eq {α : Type} {write : α → Json}
    {members : List (Json.Name × Json.Tree)} {values : List α}
    (hwritten : List.Forall₂ (fun member value => member.2.value? = some (write value))
      members values) :
    memberValues? members =
      some (((members.map (·.1.text)).zip values).map fun entry => (entry.1, write entry.2)) := by
  induction hwritten with
  | nil => rfl
  | cons hvalue _ ih => simp [memberValues?, hvalue, ih]

namespace OrderedMap

section Reading

variable {α : Type} {values : List α}

/-- What is read where the listed values stand under the names: a map with these entries in their
order when no name comes again, and otherwise a complaint about the first name that does. -/
structure ReadsInOrder (names : List String) (values : List α)
    (reading : Reading (OrderedMap α)) : Prop where
  accepted_iff : (∃ m, reading = .ok m) ↔ names.Nodup
  entries : ∀ m, reading = .ok m → m.entries = names.zip values
  refused : ∀ name, (repeats names).head? = some name → reading = .error (.duplicateField name)

theorem readsInOrder_of_nodup {names : List String} (hnodup : names.Nodup) :
    ReadsInOrder names values (.ok ⟨names.zip values⟩) where
  accepted_iff := ⟨fun _ => hnodup, fun _ => ⟨_, rfl⟩⟩
  entries _ hread := congrArg OrderedMap.entries (Except.ok.inj hread).symm
  refused name hname := by
    rw [(repeats_eq_nil_iff names).mpr hnodup] at hname
    cases hname

theorem readsInOrder_of_repeated {names : List String} {name : String}
    (hname : (repeats names).head? = some name) :
    ReadsInOrder names values (.error (.duplicateField name)) where
  accepted_iff := by
    have hrepeated : ¬ names.Nodup := fun hnodup => by
      rw [(repeats_eq_nil_iff names).mpr hnodup] at hname
      cases hname
    exact iff_of_false (fun ⟨_, hread⟩ => nomatch hread) hrepeated
  entries _ hread := nomatch hread
  refused other hother := by
    rw [hname, Option.some.injEq] at hother
    rw [hother]

theorem readsInOrder_readEntries {P : Type u} {read : P → Reading α}
    {entries : List (String × P)}
    (hvalues : List.Forall₂ (fun entry value => read entry.2 = .ok value) entries values) :
    ReadsInOrder (entries.map (·.1)) values ((readEntries read [] entries).map .mk) := by
  rw [readEntries_eq hvalues, ← repeats_eq]
  cases hhead : (repeats (entries.map (·.1))).head? with
  | none =>
      exact readsInOrder_of_nodup ((repeats_eq_nil_iff _).mp (List.head?_eq_none_iff.mp hhead))
  | some name => exact readsInOrder_of_repeated hhead

variable {members : List (Json.Name × Json.Tree)}

theorem readsInOrder_readMap {read : Part → Reading α} {held : Bool}
    (hvalues : List.Forall₂ (fun member value => read ⟨member.2, held⟩ = .ok value)
      members values) :
    ReadsInOrder (members.map (·.1.text)) values
      (Part.readMap read ⟨.obj members true, held⟩) := by
  have hparts : List.Forall₂ (fun entry value => read entry.2 = .ok value)
      (Part.members held members) values := by
    rw [Part.members, List.forall₂_map_left_iff]
    exact hvalues
  have hnames : (Part.members held members).map (·.1) = members.map (·.1.text) := by
    rw [Part.members, List.map_map]
    rfl
  rw [readMap_complete, ← hnames]
  exact readsInOrder_readEntries hparts

/-- A map with the entries of an object is written as the object, as soon as its values are. -/
theorem value?_obj {m : OrderedMap α} (hentries : m.entries = (members.map (·.1.text)).zip values)
    {write : α → Json}
    (hwritten : List.Forall₂ (fun member value => member.2.value? = some (write value))
      members values) :
    (Json.Tree.obj members true).value? = some (.obj (m.map write).entries) := by
  rw [Json.Tree.value?, if_pos rfl, Json.Tree.memberValues?_eq hwritten, map, hentries]
  rfl

/-- Insertions into a map that was empty, one by one or all at once, leave each name once, in the
order of their first insertion, with its last value, and each gives back the value it replaces.
Entries are read as a map exactly when no name is there twice, and the map has them in their order;
so has the map that is read from an object, and it is written as the object was. -/
theorem inserted_and_read_in_order {V : Type u} :
    (∀ insertions : List (String × V),
      KeepsInsertions insertions (empty.exchangeAll insertions) ∧
        ofList insertions = (empty.exchangeAll insertions).2) ∧
      (∀ (P : Type v) (read : P → Reading α) entries values,
        List.Forall₂ (fun entry value => read entry.2 = .ok value) entries values →
          ReadsInOrder (entries.map (·.1)) values ((readEntries read [] entries).map .mk)) ∧
      ∀ (read : Part → Reading α) held members values,
        List.Forall₂ (fun member value => read ⟨member.2, held⟩ = .ok value) members values →
          ReadsInOrder (members.map (·.1.text)) values
              (Part.readMap read ⟨.obj members true, held⟩) ∧
            ∀ m (write : α → Json), Part.readMap read ⟨.obj members true, held⟩ = .ok m →
              List.Forall₂ (fun member value => member.2.value? = some (write value))
                members values →
                (Json.Tree.obj members true).value? = some (.obj (m.map write).entries) := by
  refine ⟨fun insertions => ?_, fun P read entries values hvalues => ?_,
    fun read held members values hvalues => ?_⟩
  · exact ⟨keepsInsertions_exchangeAll insertions, (exchangeAll_empty_snd insertions).symm⟩
  · exact readsInOrder_readEntries hvalues
  · have hreads := readsInOrder_readMap hvalues
    exact ⟨hreads, fun m write hread hwritten => value?_obj (hreads.entries m hread) hwritten⟩

end Reading

namespace EntryOrderWitness

/-- Insertions with a name that comes again. -/
def insertions : List (String × Nat) := [("b", 1), ("a", 2), ("b", 3)]

/-- An object whose names do not ascend, one of them written with a backslash. -/
def unsorted : List (Json.Name × Json.Tree) :=
  [(⟨"zeta", true⟩, .num (.int 1)), (⟨"alpha", false⟩, .num (.int 2)),
    (⟨"mid", true⟩, .num (.int 1))]

/-- The same numbers as a map. -/
def shelf : OrderedMap Nat := ⟨[("zeta", 1), ("alpha", 2), ("mid", 1)]⟩

/-- How a number is written. -/
def number (n : Nat) : Json := .num (.int n)

theorem kept_and_read :
    (KeepsInsertions insertions (empty.exchangeAll insertions) ∧
      ofList insertions = (empty.exchangeAll insertions).2) ∧
      (List.Forall₂ (fun entry value => (.ok entry.2 : Reading Nat) = .ok value)
          insertions [1, 2, 3] ∧
        ReadsInOrder ["b", "a", "b"] [1, 2, 3]
          ((readEntries .ok [] insertions).map .mk)) ∧
      List.Forall₂ (fun member value => Part.readNat 3 ⟨member.2, false⟩ = .ok value)
        unsorted [1, 2, 1] ∧
      ReadsInOrder ["zeta", "alpha", "mid"] [1, 2, 1]
        (Part.readMap (Part.readNat 3) ⟨.obj unsorted true, false⟩) ∧
      Part.readMap (Part.readNat 3) ⟨.obj unsorted true, false⟩ = .ok shelf ∧
      List.Forall₂ (fun member value => member.2.value? = some (number value))
        unsorted [1, 2, 1] ∧
      (Json.Tree.obj unsorted true).value? = some (.obj (shelf.map number).entries) := by
  obtain ⟨hinserted, hentries, hobject⟩ := inserted_and_read_in_order.{0, 0} (α := Nat) (V := Nat)
  have hgiven : List.Forall₂ (fun entry value => (.ok entry.2 : Reading Nat) = .ok value)
      insertions [1, 2, 3] := .cons rfl (.cons rfl (.cons rfl .nil))
  have hvalues : List.Forall₂ (fun member value => Part.readNat 3 ⟨member.2, false⟩ = .ok value)
      unsorted [1, 2, 1] := .cons rfl (.cons rfl (.cons rfl .nil))
  have hread : Part.readMap (Part.readNat 3) ⟨.obj unsorted true, false⟩ = .ok shelf := rfl
  have hwritten : List.Forall₂ (fun member value => member.2.value? = some (number value))
      unsorted [1, 2, 1] := .cons rfl (.cons rfl (.cons rfl .nil))
  obtain ⟨hreads, hwrites⟩ := hobject _ _ unsorted _ hvalues
  exact ⟨hinserted insertions, ⟨hgiven, hentries Nat .ok insertions _ hgiven⟩, hvalues, hreads,
    hread, hwritten, hwrites shelf number hread hwritten⟩

/-- The second insertion under a name gives back the first. -/
example : empty.exchangeAll insertions = ([none, none, some 1], ⟨[("b", 3), ("a", 2)]⟩) := by
  decide

end EntryOrderWitness

end OrderedMap

end ServiceGen

import ServiceGen.Json.Record
import ServiceGen.Proofs.Json.RoundTrip

/-!
Records that are read back.  What a reader gives is traced to the parts that its fields were read
from; and a reader that is offered the members it has once been read as, among members of other
names, gives the same again.
-/

namespace ServiceGen

universe u

namespace Record

variable {P : Type u} {α : Type}

/-- What is offered, in order. -/
def parts : Record P → List P
  | named members _ => members.map (·.2)
  | positional items _ => items

theorem map_snd_occurrences_from (name : String) (members : List (String × P)) (start : Nat) :
    ((members.zipIdx start).filterMap fun ((n, offered), place) =>
      if n = name then some (place, offered) else none).map (·.2) =
        (members.filter (·.1 = name)).map (·.2) := by
  induction members generalizing start with
  | nil => simp
  | cons member rest ih =>
      by_cases hname : member.1 = name
      · simp [hname, ih]
      · simp [hname, ih]

theorem map_snd_occurrences (name : String) (members : List (String × P)) :
    (occurrences name members).map (·.2) =
      (members.filter (·.1 = name)).map (·.2) :=
  map_snd_occurrences_from name members 0

theorem mem_of_mem_occurrences {name : String} {members : List (String × P)} {place : Nat}
    {offered : P} (h : (place, offered) ∈ occurrences name members) :
    (name, offered) ∈ members := by
  have hmem : offered ∈ (members.filter (·.1 = name)).map (·.2) :=
    map_snd_occurrences name members ▸ List.mem_map_of_mem h
  obtain ⟨⟨n, p⟩, hmember, rfl⟩ := List.mem_map.mp hmem
  obtain ⟨hmember, hname⟩ := List.mem_filter.mp hmember
  exact of_decide_eq_true hname ▸ hmember

theorem occurrences_of_filter_eq_singleton {members : List (String × P)} {name : String} {p : P}
    (h : members.filter (·.1 = name) = [(name, p)]) :
    ∃ place, occurrences name members = [(place, p)] := by
  obtain ⟨⟨place, q⟩, hoccurrences, rfl⟩ : ∃ o, occurrences name members = [o] ∧ o.2 = p := by
    simpa [h] using map_snd_occurrences name members
  exact ⟨place, hoccurrences⟩

theorem field_eq_ok {r : Record P} {index : Nat} {name : String} {read : P → Reading α}
    {missing : Except Fault α} {a : α} (h : r.field index name read missing = .ok a) :
    missing = .ok a ∨ ∃ p ∈ r.parts, read p = .ok a := by
  cases r with
  | named members complete =>
      simp only [field] at h
      split at h
      · exact .inl h
      · rename_i place offered others hoccurrences
        have hmem : (name, offered) ∈ members := mem_of_mem_occurrences
          (hoccurrences ▸ List.mem_cons_self : (place, offered) ∈ occurrences name members)
        split at h
        · cases h
        · rename_i hread
          cases h
          exact .inr ⟨offered, List.mem_map_of_mem hmem, hread⟩
        · cases h
  | positional items complete =>
      simp only [field] at h
      split at h
      · exact .inl h
      · rename_i offered hitem
        cases hread : read offered with
        | error e => simp [hread, Except.mapError] at h
        | ok b =>
            simp only [hread, Except.mapError, Except.ok.injEq] at h
            subst h
            exact .inr ⟨offered, List.mem_of_getElem? hitem, hread⟩

theorem filter_eq_singleton_of_field {members : List (String × P)} {complete : Bool}
    {index : Nat} {name : String} {read : P → Reading α} {fault : Fault} {a : α}
    (h : (named members complete).field index name read (.error fault) = .ok a) :
    ∃ p, members.filter (·.1 = name) = [(name, p)] ∧ read p = .ok a := by
  simp only [field] at h
  split at h
  · cases h
  · rename_i place offered others hoccurrences
    split at h
    · cases h
    · rename_i hread
      cases h
      refine ⟨offered, ?_, hread⟩
      have hvalues := map_snd_occurrences name members
      rw [hoccurrences] at hvalues
      obtain ⟨⟨n, p⟩, hsingle, rfl⟩ := List.map_eq_singleton_iff.mp hvalues.symm
      have hmem : (n, p) ∈ members.filter (·.1 = name) := hsingle ▸ List.mem_cons_self
      have hname : n = name := of_decide_eq_true (List.mem_filter.mp hmem).2
      rw [hsingle, hname]
    · cases h

theorem field_of_filter_eq_nil {members : List (String × P)} {name : String}
    (h : members.filter (·.1 = name) = []) (complete : Bool) (index : Nat)
    (read : P → Reading α) (missing : Except Fault α) :
    (named members complete).field index name read missing = missing := by
  have hoccurrences : occurrences name members = [] := by
    simpa [h] using map_snd_occurrences name members
  simp [field, hoccurrences]

theorem field_of_filter_eq_singleton {members : List (String × P)} {name : String} {p : P}
    (h : members.filter (·.1 = name) = [(name, p)]) (complete : Bool) (index : Nat)
    {read : P → Reading α} (missing : Except Fault α) {a : α} (hread : read p = .ok a) :
    (named members complete).field index name read missing = .ok a := by
  obtain ⟨place, hoccurrences⟩ := occurrences_of_filter_eq_singleton h
  simp [field, hoccurrences, hread]

end Record

namespace RecordReader

variable {P : Type u} {α β : Type}

/-- Whatever the reader gives of `r` satisfies `Q`. -/
def Every (reader : RecordReader P α) (r : Record P) (Q : α → Prop) : Prop :=
  ∀ index a, reader.read r index = .ok a → Q a

theorem both_eq_ok {f : Except Fault (α → β)} {x : Except Fault α} {b : β}
    (h : both f x = .ok b) : ∃ g a, f = .ok g ∧ x = .ok a ∧ g a = b := by
  cases f <;> cases x <;> simp_all [both]

theorem every_map {f : α → β} {x : RecordReader P α} {r : Record P} {Q : β → Prop}
    (h : x.Every r fun a => Q (f a)) : (f <$> x).Every r Q := by
  intro index b hb
  obtain ⟨g, a, hg, ha, rfl⟩ := both_eq_ok hb
  cases hg
  exact h _ a ha

theorem every_seq {f : RecordReader P (α → β)} {x : RecordReader P α} {r : Record P}
    {Q : β → Prop} (h : f.Every r fun g => x.Every r fun a => Q (g a)) :
    (f <*> x).Every r Q := by
  intro index b hb
  obtain ⟨g, a, hg, ha, rfl⟩ := both_eq_ok hb
  exact h _ g hg _ a ha

theorem required_eq_ok {name : String} {read : P → Reading α} {r : Record P} {index : Nat}
    {a : α} (h : (required name read).read r index = .ok a) : ∃ p ∈ r.parts, read p = .ok a :=
  (Record.field_eq_ok h).resolve_left nofun

theorem optional_eq_ok {name : String} {read : P → Reading α} {missing : α} {r : Record P}
    {index : Nat} {a : α} (h : (optional name read missing).read r index = .ok a) :
    a = missing ∨ ∃ p ∈ r.parts, read p = .ok a :=
  (Record.field_eq_ok h).imp_left fun hmissing => (Except.ok.inj hmissing).symm

/-- The reader gives `a` of every named record that has `members` under `names`.  A value is
offered as the part that `mk` makes of it. -/
structure Keeps (mk : Json → P) (reader : RecordReader P α) (a : α) (names : List String)
    (members : List (String × Json)) : Prop where
  sublist : (members.map (·.1)).Sublist names
  unique : ∀ member ∈ members, member.2.UniqueNames
  reads : names.Nodup → ∀ offers complete index,
    offers.filter (·.1 ∈ names) = members.map (fun m => (m.1, mk m.2)) →
      reader.read (.named offers complete) index = .ok a

namespace Keeps

variable {mk : Json → P} {names names' : List String} {members members' : List (String × Json)}

theorem mem_names {reader : RecordReader P α} {a : α} (h : Keeps mk reader a names members)
    {member : String × Json} (hmember : member ∈ members) : member.1 ∈ names :=
  h.sublist.subset (List.mem_map_of_mem hmember)

theorem pure (a : α) : Keeps mk (Pure.pure a) a [] [] :=
  ⟨List.Sublist.refl _, nofun, fun _ _ _ _ _ => rfl⟩

theorem map {x : RecordReader P α} {a : α} (h : Keeps mk x a names members) (f : α → β) :
    Keeps mk (f <$> x) (f a) names members where
  sublist := h.sublist
  unique := h.unique
  reads hnodup offers complete index hoffers := by
    change both (.ok f) (x.read (.named offers complete) (index + 0)) = _
    rw [h.reads hnodup offers complete _ hoffers]
    rfl

theorem filter_filter_names {offers : List (String × P)} {all : List String}
    (hsubset : ∀ name ∈ names, name ∈ all) :
    (offers.filter (·.1 ∈ all)).filter (·.1 ∈ names) = offers.filter (·.1 ∈ names) := by
  rw [List.filter_filter]
  refine List.filter_congr fun offer _ => ?_
  by_cases hname : offer.1 ∈ names
  · simp [hname, hsubset offer.1 hname]
  · simp [hname]

theorem filter_offers_left (keep : String → Bool) (hkeep : ∀ m ∈ members, keep m.1 = true)
    (hdrop : ∀ m ∈ members', keep m.1 = false) :
    ((members ++ members').map fun m => (m.1, mk m.2)).filter (keep ·.1) =
      members.map fun m => (m.1, mk m.2) := by
  have hkept : members.filter ((keep ·.1) ∘ fun m => (m.1, mk m.2)) = members :=
    List.filter_eq_self.mpr hkeep
  have hdropped : members'.filter ((keep ·.1) ∘ fun m => (m.1, mk m.2)) = [] :=
    List.filter_eq_nil_iff.mpr fun m hm => by simp [hdrop m hm]
  rw [List.filter_map, List.filter_append, hkept, hdropped, List.append_nil]

theorem filter_offers_right (keep : String → Bool) (hdrop : ∀ m ∈ members, keep m.1 = false)
    (hkeep : ∀ m ∈ members', keep m.1 = true) :
    ((members ++ members').map fun m => (m.1, mk m.2)).filter (keep ·.1) =
      members'.map fun m => (m.1, mk m.2) := by
  have hkept : members'.filter ((keep ·.1) ∘ fun m => (m.1, mk m.2)) = members' :=
    List.filter_eq_self.mpr hkeep
  have hdropped : members.filter ((keep ·.1) ∘ fun m => (m.1, mk m.2)) = [] :=
    List.filter_eq_nil_iff.mpr fun m hm => by simp [hdrop m hm]
  rw [List.filter_map, List.filter_append, hkept, hdropped, List.nil_append]

theorem occurrences_tagged (mk : Json → P) {tag : String} (htag : ∀ m ∈ members, m.1 ≠ tag)
    (v : Json) :
    ∃ place, Record.occurrences tag (((tag, v) :: members).map fun m => (m.1, mk m.2)) =
      [(place, mk v)] := by
  have hkeep : ∀ m ∈ [(tag, v)], decide (m.1 = tag) = true := by simp
  exact Record.occurrences_of_filter_eq_singleton
    (filter_offers_left (· = tag) hkeep fun m hm => decide_eq_false (htag m hm))

theorem filter_tagged {tag : String} (htag : ∀ m ∈ members, m.1 ≠ tag) (v : Json) :
    (((tag, v) :: members).map fun m => (m.1, mk m.2)).filter (·.1 != tag) =
      members.map fun m => (m.1, mk m.2) := by
  have hdrop : ∀ m ∈ [(tag, v)], (m.1 != tag) = false := by simp
  exact filter_offers_right (· != tag) hdrop fun m hm => bne_iff_ne.mpr (htag m hm)

/-- Two readers that look at different names. -/
theorem seq {f : RecordReader P (α → β)} {x : RecordReader P α} {g : α → β} {a : α}
    (hf : Keeps mk f g names members) (hx : Keeps mk x a names' members') :
    Keeps mk (f <*> x) (g a) (names ++ names') (members ++ members') where
  sublist := by
    rw [List.map_append]
    exact hf.sublist.append hx.sublist
  unique member hmember := (List.mem_append.mp hmember).elim (hf.unique member) (hx.unique member)
  reads hnodup offers complete index hoffers := by
    obtain ⟨hnames, hnames', hdisjoint⟩ := List.nodup_append.mp hnodup
    -- each reader is given the offers under its own names, which the other one has none of
    have hleft : offers.filter (·.1 ∈ names) = members.map fun m => (m.1, mk m.2) := by
      rw [← filter_filter_names fun _ => List.mem_append_left names', hoffers]
      refine filter_offers_left (· ∈ names) (fun m hm => decide_eq_true (hf.mem_names hm))
        fun m hm => ?_
      exact decide_eq_false fun hmem => hdisjoint _ hmem _ (hx.mem_names hm) rfl
    have hright : offers.filter (·.1 ∈ names') = members'.map fun m => (m.1, mk m.2) := by
      rw [← filter_filter_names fun _ => List.mem_append_right names, hoffers]
      refine filter_offers_right (· ∈ names') (fun m hm => ?_)
        fun m hm => decide_eq_true (hx.mem_names hm)
      exact decide_eq_false fun hmem => hdisjoint _ (hf.mem_names hm) _ hmem rfl
    change both (f.read (.named offers complete) index) (x.read (.named offers complete) _) = _
    rw [hf.reads hnames offers complete _ hleft, hx.reads hnames' offers complete _ hright]
    rfl

theorem required {name : String} {read : P → Reading α} {v : Json} {a : α}
    (hv : v.UniqueNames) (hread : read (mk v) = .ok a) :
    Keeps mk (.required name read) a [name] [(name, v)] where
  sublist := List.Sublist.refl _
  unique := by simpa using hv
  reads _ offers complete index hoffers :=
    Record.field_of_filter_eq_singleton (by simpa using hoffers) complete index _ hread

theorem optional {name : String} {read : P → Reading α} {v : Json} {a : α}
    (hv : v.UniqueNames) (hread : read (mk v) = .ok a) (missing : α) :
    Keeps mk (.optional name read missing) a [name] [(name, v)] where
  sublist := List.Sublist.refl _
  unique := by simpa using hv
  reads _ offers complete index hoffers :=
    Record.field_of_filter_eq_singleton (by simpa using hoffers) complete index _ hread

theorem leftOut (name : String) (read : P → Reading α) (missing : α) :
    Keeps mk (.optional name read missing) missing [name] [] where
  sublist := List.nil_sublist _
  unique := nofun
  reads _ offers complete index hoffers :=
    Record.field_of_filter_eq_nil (by simpa using hoffers) complete index read _

theorem member? {name : String} {read : P → Reading (Option α)} {write : α → Json} {o : Option α}
    (h : ∀ a, o = some a → (write a).UniqueNames ∧ read (mk (write a)) = .ok (some a)) :
    Keeps mk (.optional name read none) o [name] (ServiceGen.member? name write o) := by
  cases o with
  | none => exact leftOut name read none
  | some a => exact optional (h a rfl).1 (h a rfl).2 none

/-- A field that is left out where it has the value that it has when it is missing. -/
theorem unlessDefault {name : String} {read : P → Reading α} {v : Json} {a missing : α} {c : Prop}
    [Decidable c] (hc : c → a = missing) (h : ¬ c → v.UniqueNames ∧ read (mk v) = .ok a) :
    Keeps mk (.optional name read missing) a [name] (if c then [] else [(name, v)]) := by
  split
  · rename_i hleftOut
    exact hc hleftOut ▸ leftOut name read a
  · rename_i hwritten
    exact optional (h hwritten).1 (h hwritten).2 missing

theorem run {reader : RecordReader P α} {a : α} (h : Keeps mk reader a names members)
    (hnodup : names.Nodup) {offers : List (String × P)}
    (hoffers : offers.filter (·.1 ∈ names) = members.map fun m => (m.1, mk m.2)) :
    reader.run (.named offers true) = .ok a := by
  simp [RecordReader.run, h.reads hnodup offers true 0 hoffers, Part.finish]

theorem run_members {reader : RecordReader P α} {a : α} (h : Keeps mk reader a names members)
    (hnodup : names.Nodup) :
    reader.run (.named (members.map fun m => (m.1, mk m.2)) true) = .ok a := by
  refine h.run hnodup (List.filter_eq_self.mpr fun offer hoffer => ?_)
  obtain ⟨m, hm, rfl⟩ := List.mem_map.mp hoffer
  exact decide_eq_true (h.mem_names hm)

theorem uniqueNames {reader : RecordReader P α} {a : α} (h : Keeps mk reader a names members)
    (hnodup : names.Nodup) : (Json.obj members).UniqueNames :=
  (Json.uniqueNames_obj members).mpr ⟨hnodup.sublist h.sublist, h.unique⟩

end Keeps

theorem run_eq_ok {reader : RecordReader P α} {r : Record P} {a : α} (h : reader.run r = .ok a) :
    reader.read r 0 = .ok a := by
  unfold run at h
  split at h
  · cases h
  · rename_i b hread
    rw [hread]
    split at h <;>
    · unfold Part.finish at h
      split at h
      · exact congrArg Except.ok (Except.ok.inj h)
      · cases h

end RecordReader

section Parts

variable {α : Type} {read : Part → Reading α} {write : α → Json} {name : String}
  {r : Record Part} {index : Nat}

/-- The record consists of plain parts. -/
def Record.Plain (r : Record Part) : Prop :=
  ∀ p ∈ r.parts, p.Plain

theorem readRecord_obj (reader : RecordReader Part α) (held : Bool)
    (members : List (String × Json)) :
    (Part.offered held (.obj members)).readRecord reader =
      reader.run (.named (members.map fun m => (m.1, Part.offered held m.2)) true) := by
  rw [← members_ofMembers]
  rfl

namespace RoundTrips

theorem keeps_required (h : RoundTrips read write) (hr : r.Plain) {a : α}
    (hread : (RecordReader.required name read).read r index = .ok a) (held : Bool) :
    RecordReader.Keeps (.offered held) (.required name read) a [name] [(name, write a)] := by
  obtain ⟨p, hp, ha⟩ := RecordReader.required_eq_ok hread
  have hrecovers := h.recovers (hr p hp) ha
  exact .required hrecovers.unique (hrecovers.reads held)

theorem keeps_optional (h : RoundTrips read write) (hr : r.Plain) {a missing : α}
    (hread : (RecordReader.optional name read missing).read r index = .ok a)
    (hmissing : Recovers read write missing) (held : Bool) :
    RecordReader.Keeps (.offered held) (.optional name read missing) a [name]
      [(name, write a)] := by
  have hrecovers : Recovers read write a := by
    rcases RecordReader.optional_eq_ok hread with rfl | ⟨p, hp, ha⟩
    · exact hmissing
    · exact h.recovers (hr p hp) ha
  exact .optional hrecovers.unique (hrecovers.reads held) missing

theorem keeps_member? (h : RoundTrips read write) (hr : r.Plain) {o : Option α}
    (hread : (RecordReader.optional name (Part.readOptional read) none).read r index = .ok o)
    (held : Bool) :
    RecordReader.Keeps (.offered held) (.optional name (Part.readOptional read) none) o [name]
      (member? name write o) := by
  refine .member? fun a ho => ?_
  subst ho
  rcases RecordReader.optional_eq_ok hread with hnone | ⟨p, hp, ha⟩
  · cases hnone
  · obtain ⟨hrecovers, hnull⟩ := h.recovers_some (hr p hp) ha
    exact ⟨hrecovers.unique, readOptional_offered hnull (hrecovers.reads held)⟩

/-- A record is recovered when its fields are, each under a name of its own. -/
theorem record {reader : RecordReader Part α} {members : α → List (String × Json)}
    {names : List String} (hwrite : ∀ a, write a = .obj (members a)) (hnodup : names.Nodup)
    (h : ∀ {r}, r.Plain → ∀ held,
      reader.Every r fun a => RecordReader.Keeps (.offered held) reader a names (members a)) :
    RoundTrips (Part.readRecord reader) write where
  recovers {p a} hp hread := by
    obtain ⟨v, held, hv, rfl⟩ := hp
    have hkeeps : ∀ held, RecordReader.Keeps (.offered held) reader a names (members a) := by
      intro again
      cases v with
      | obj ms =>
          refine h (fun p hp => ?_) again 0 a (RecordReader.run_eq_ok hread)
          rw [Record.parts, members_ofMembers] at hp
          obtain ⟨entry, hentry, rfl⟩ := List.mem_map.mp hp
          exact plain_of_mem hv hentry
      | arr items =>
          refine h (fun p hp => ?_) again 0 a (RecordReader.run_eq_ok hread)
          rw [Record.parts, Json.Tree.ofItems_eq, List.map_map] at hp
          obtain ⟨item, hitem, rfl⟩ := List.mem_map.mp hp
          exact Part.plain_offered held ((Json.uniqueNames_arr items).mp hv item hitem)
      | _ => cases hread
    refine ⟨?_, fun held => ?_⟩
    · rw [hwrite]
      exact (hkeeps true).uniqueNames hnodup
    · rw [hwrite, readRecord_obj]
      exact (hkeeps held).run_members hnodup
  null_of_null {p a} _ _ := by
    rw [hwrite]
    nofun

end RoundTrips

end Parts

end ServiceGen

import Mathlib.Data.List.Perm.Basic
import ServiceGen.Proofs.Problems

/-!
A collection of problems as a list of messages, each with the parts of its route.  Attaching a
collection below a part puts that part in front of all of its routes and changes nothing else but
the order (`located_attach_perm`); the flat list only joins the parts (`flatten_eq`).
-/

namespace ServiceGen.Problems

/-- A message below one more part of its route. -/
def under (part : String) (located : List String × String) : List String × String :=
  (part :: located.1, located.2)

mutual

/-- Every message with the parts of its route. -/
def located : Problems → List (List String × String)
  | ⟨messages, ⟨children⟩⟩ => messages.map ([], ·) ++ locatedBelow children

/-- The messages below several parts. -/
def locatedBelow : List (String × Problems) → List (List String × String)
  | [] => []
  | (part, p) :: rest => p.located.map (under part) ++ locatedBelow rest

end

@[simp] theorem located_empty : empty.located = [] := by
  rw [empty, SortedMap.empty, located, locatedBelow]
  rfl

theorem located_mk (messages : List String) (children : SortedMap String Problems) :
    (mk messages children).located =
      messages.map ([], ·) ++ locatedBelow children.entries := by
  obtain ⟨entries⟩ := children
  rw [located]

theorem located_addAll_perm (p : Problems) (messages : List String) :
    (p.addAll messages).located.Perm (p.located ++ messages.map ([], ·)) := by
  obtain ⟨own, children⟩ := p
  rw [addAll, located_mk, located_mk, List.map_append, List.append_assoc, List.append_assoc]
  exact List.Perm.append_left _ List.perm_append_comm

theorem located_add_perm (p : Problems) (message : String) :
    (p.add message).located.Perm (p.located ++ [([], message)]) :=
  located_addAll_perm p [message]

/-- When the value under a part gains some messages and no other value changes, the messages below
all parts gain them. -/
theorem locatedBelow_alterEntry_perm (part : String) (f : Option Problems → Problems)
    (gained : List (List String × String))
    (hf : ∀ old : Option Problems,
      (f old).located.Perm ((old.getD empty).located ++ gained))
    (entries : List (String × Problems)) :
    (locatedBelow (SortedMap.alterEntry part f entries)).Perm
      (locatedBelow entries ++ gained.map (under part)) := by
  have hnew : ((f none).located.map (under part)).Perm (gained.map (under part)) := by
    simpa using (hf none).map (under part)
  induction entries with
  | nil => simpa [SortedMap.alterEntry, locatedBelow] using hnew
  | cons entry rest ih =>
      obtain ⟨other, p⟩ := entry
      rw [SortedMap.alterEntry]
      cases hcompare : compare part other with
      | lt =>
          rw [locatedBelow]
          exact (hnew.append_right _).trans List.perm_append_comm
      | eq =>
          obtain rfl : part = other := Std.LawfulEqOrd.eq_of_compare hcompare
          have hold := (hf (some p)).map (under part)
          rw [List.map_append, Option.getD_some] at hold
          rw [locatedBelow, locatedBelow, List.append_assoc]
          refine (hold.append_right _).trans ?_
          rw [List.append_assoc]
          exact List.Perm.append_left _ List.perm_append_comm
      | gt =>
          rw [locatedBelow, locatedBelow, List.append_assoc]
          exact List.Perm.append_left _ ih

mutual

theorem located_eq_nil_iff : ∀ p : Problems, p.located = [] ↔ p.isEmpty = true
  | ⟨messages, ⟨children⟩⟩ => by
      rw [located, isEmpty, List.append_eq_nil_iff, List.map_eq_nil_iff,
        locatedBelow_eq_nil_iff children, Bool.and_eq_true, List.isEmpty_iff]

theorem locatedBelow_eq_nil_iff :
    ∀ children : List (String × Problems), locatedBelow children = [] ↔ allEmpty children = true
  | [] => by simp [locatedBelow, allEmpty]
  | (part, p) :: rest => by
      rw [locatedBelow, allEmpty, List.append_eq_nil_iff, List.map_eq_nil_iff,
        located_eq_nil_iff p, locatedBelow_eq_nil_iff rest, Bool.and_eq_true]

end

mutual

theorem count_eq : ∀ p : Problems, p.count = p.located.length
  | ⟨messages, ⟨children⟩⟩ => by
      rw [count, located, List.length_append, List.length_map, countAll_eq children]

theorem countAll_eq :
    ∀ children : List (String × Problems), countAll children = (locatedBelow children).length
  | [] => by rw [countAll, locatedBelow, List.length_nil]
  | (part, p) :: rest => by
      rw [countAll, locatedBelow, List.length_append, List.length_map, count_eq p,
        countAll_eq rest]

end

mutual

/-- Attaching puts the part in front of all routes of what is attached. -/
theorem located_attach_perm (p : Problems) (part : String) :
    ∀ q : Problems, (p.attach part q).located.Perm (p.located ++ q.located.map (under part))
  | ⟨messages, ⟨children⟩⟩ => by
      by_cases hnone : (messages.isEmpty && allEmpty children) = true
      · have hlocated : (mk messages ⟨children⟩).located = [] :=
          (located_eq_nil_iff _).mpr (by rw [isEmpty, hnone])
        rw [attach, if_pos hnone, hlocated, List.map_nil, List.append_nil]
      · obtain ⟨own, siblings⟩ := p
        rw [attach, if_neg hnone, located_mk, located_mk, List.append_assoc]
        refine List.Perm.append_left _ ?_
        refine locatedBelow_alterEntry_perm part _ (mk messages ⟨children⟩).located ?_ _
        intro old
        refine (located_attachAll_perm _ children).trans ?_
        rw [located_mk, ← List.append_assoc]
        exact (located_addAll_perm _ messages).append_right _

theorem located_attachAll_perm (p : Problems) :
    ∀ children : List (String × Problems),
      (p.attachAll children).located.Perm (p.located ++ locatedBelow children)
  | [] => by rw [attachAll, locatedBelow, List.append_nil]
  | (part, q) :: rest => by
      rw [attachAll, locatedBelow, ← List.append_assoc]
      exact (located_attachAll_perm _ rest).trans
        ((located_attach_perm p part q).append_right _)

end

theorem located_nested_perm (route : List String) (message : String) :
    (route.foldr (fun part below => empty.attach part below) (empty.add message)).located.Perm
      [(route, message)] := by
  induction route with
  | nil => simpa using located_add_perm empty message
  | cons part route ih =>
      have hattach := located_attach_perm empty part
        (route.foldr (fun part below => empty.attach part below) (empty.add message))
      rw [located_empty, List.nil_append] at hattach
      exact hattach.trans (ih.map (under part))

/-- A problem that is reported at the end of a route is there, and nothing else changes. -/
theorem located_report_perm (p : Problems) {route : List String} (hroute : route ≠ [])
    (message : String) :
    (p.report route message).located.Perm (p.located ++ [(route, message)]) := by
  cases route with
  | nil => exact absurd rfl hroute
  | cons first rest =>
      exact (located_attach_perm p first _).trans
        (List.Perm.append_left _ ((located_nested_perm rest message).map (under first)))

/-- Collections that are attached one after the other add what they hold below their parts. -/
theorem located_foldl_attach_perm {α : Type} (part : α → String) (problems : α → Problems)
    (items : List α) (p : Problems) :
    (items.foldl (fun p item => p.attach (part item) (problems item)) p).located.Perm
      (p.located ++ items.flatMap fun item =>
        (problems item).located.map (under (part item))) := by
  induction items generalizing p with
  | nil => simp
  | cons item rest ih =>
      rw [List.foldl_cons, List.flatMap_cons, ← List.append_assoc]
      exact (ih _).trans ((located_attach_perm p (part item) (problems item)).append_right _)

mutual

theorem flattenFrom_eq (route : String) :
    ∀ p : Problems, flattenFrom route p =
      p.located.map fun x => (x.1.foldl joinRoute route, x.2)
  | ⟨messages, ⟨children⟩⟩ => by
      rw [flattenFrom, located, List.map_append, List.map_map, flattenAll_eq route children]
      rfl

theorem flattenAll_eq (route : String) :
    ∀ children : List (String × Problems), flattenAll route children =
      (locatedBelow children).map fun x => (x.1.foldl joinRoute route, x.2)
  | [] => by rw [flattenAll, locatedBelow, List.map_nil]
  | (part, p) :: rest => by
      rw [flattenAll, locatedBelow, List.map_append, List.map_map,
        flattenFrom_eq (joinRoute route part) p, flattenAll_eq route rest]
      rfl

end

theorem flatten_eq (p : Problems) :
    p.flatten = p.located.map fun x => (x.1.foldl joinRoute "", x.2) :=
  flattenFrom_eq "" p

theorem foldl_joinRoute {route : String} (hroute : route ≠ "") (parts : List String) :
    parts.foldl joinRoute route = ".".intercalate (route :: parts) := by
  induction parts generalizing route with
  | nil => simp
  | cons part parts ih =>
      have hjoin : joinRoute route part = route ++ "." ++ part := by
        simp [joinRoute, hroute]
      rw [List.foldl_cons, hjoin, ih (by simp)]
      cases parts with
      | nil => simp [String.intercalate_cons_cons]
      | cons next parts => simp [String.intercalate_cons_cons, String.append_assoc]

/-- Empty parts at the front of a route leave no trace in its text. -/
theorem foldl_joinRoute_empty (parts : List String) :
    parts.foldl joinRoute "" = ".".intercalate (parts.dropWhile (· = "")) := by
  induction parts with
  | nil => rfl
  | cons part parts ih =>
      have hfirst : joinRoute "" part = part := rfl
      rw [List.foldl_cons, hfirst]
      by_cases hpart : part = ""
      · simpa [hpart] using ih
      · simpa [hpart] using foldl_joinRoute hpart parts

end ServiceGen.Problems

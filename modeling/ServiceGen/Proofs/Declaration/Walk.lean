import ServiceGen.Proofs.Declaration.Findings

/-!
What a walk finds.  A `Leg` relates the walk before and after some of its steps: the modules that
it entered were new, and what it recorded are their exports in some order.  Walking from every
module enters each of them exactly once, so that the findings are those of the catalogue whatever
refers to what; the main statement is `Walk.everywhere_finds_all_declared`.
-/

namespace ServiceGen

theorem Finding.ofExport_eq_reference_iff (e : Export) (target : String) :
    ofExport e = .reference target ↔ e = .reference target := by
  cases e <;> grind [ofExport]

namespace Walk

variable {c : Catalogue}

/-- The walk after an attribute of the module `name`, where `steps` references may be followed. -/
def visit (c : Catalogue) (steps : Nat) (name : String) (w : Walk) (entry : String × Export) :
    Walk :=
  match Finding.ofExport entry.2 with
  | .reference target =>
      match c.get? target with
      | some next => enter c steps next w
      | none => w
  | finding => { w with found := w.found.add name entry.1 finding }

theorem visit_reference (c : Catalogue) (steps : Nat) (name : String) (w : Walk)
    (key target : String) :
    visit c steps name w (key, .reference target) =
      match c.get? target with
      | some next => enter c steps next w
      | none => w :=
  rfl

theorem visit_of_not_isReference (steps : Nat) (name : String) (w : Walk) (key : String)
    {e : Export} (he : e.isReference = false) :
    visit c steps name w (key, e) = { w with found := w.found.record (name, key, e) } := by
  rw [visit]
  split
  · rename_i target htarget
    obtain rfl := (Finding.ofExport_eq_reference_iff e target).mp htarget
    cases he
  · rfl

theorem enter_succ (c : Catalogue) (steps : Nat) (m : ModuleDeclaration) (w : Walk) :
    enter c (steps + 1) m w =
      if w.visited.contains m.name then w
      else m.attributes.entries.foldl (visit c steps m.name)
        { w with visited := m.name :: w.visited } :=
  rfl

/-- From `w` to `w'` the walk entered `modules`, one after the other, and recorded `exports`. -/
structure Leg (c : Catalogue) (w w' : Walk) (modules : List ModuleDeclaration)
    (exports : List PlacedExport) : Prop where
  visited : w'.visited = (modules.map ModuleDeclaration.name).reverse ++ w.visited
  known : ∀ m ∈ modules, m ∈ c.modules.values
  nodup : w.visited.Nodup → w'.visited.Nodup
  recorded : ∃ order : List PlacedExport, order.Perm exports ∧
    w'.found = order.foldl Findings.record w.found

namespace Leg

variable {w w' w'' : Walk} {modules modules' : List ModuleDeclaration}
  {exports exports' : List PlacedExport}

theorem rest (w : Walk) : Leg c w w [] [] where
  visited := rfl
  known := by simp
  nodup := id
  recorded := ⟨[], List.Perm.refl [], rfl⟩

theorem trans (h : Leg c w w' modules exports) (h' : Leg c w' w'' modules' exports') :
    Leg c w w'' (modules ++ modules') (exports ++ exports') where
  visited := by
    rw [h'.visited, h.visited]
    simp
  known := by
    intro m hm
    rcases List.mem_append.mp hm with hm | hm
    · exact h.known m hm
    · exact h'.known m hm
  nodup := h'.nodup ∘ h.nodup
  recorded := by
    obtain ⟨order, hperm, hfound⟩ := h.recorded
    obtain ⟨order', hperm', hfound'⟩ := h'.recorded
    refine ⟨order ++ order', hperm.append hperm', ?_⟩
    rw [hfound', hfound, List.foldl_append]

theorem perm (h : Leg c w w' modules exports) (hperm : exports.Perm exports') :
    Leg c w w' modules exports' :=
  { h with
    recorded := by
      obtain ⟨order, horder, hfound⟩ := h.recorded
      exact ⟨order, horder.trans hperm, hfound⟩ }

theorem mem_visited (h : Leg c w w' modules exports) {name : String} (hname : name ∈ w.visited) :
    name ∈ w'.visited := by
  rw [h.visited]
  exact List.mem_append_right _ hname

end Leg

/-- One attribute: an export is recorded, and a reference leads to new modules if anywhere. -/
theorem exists_leg_visit {steps : Nat}
    (henter : ∀ m ∈ c.modules.values, ∀ w : Walk, ∃ modules,
      Leg c w (enter c steps m w) modules (modules.flatMap ModuleDeclaration.exports))
    (name : String) (entry : String × Export) (w : Walk) :
    ∃ modules, Leg c w (visit c steps name w entry) modules
      (placedExports name [entry] ++ modules.flatMap ModuleDeclaration.exports) := by
  obtain ⟨key, e⟩ := entry
  cases he : e.isReference with
  | true =>
      obtain ⟨target, rfl⟩ : ∃ target, e = .reference target := by
        cases e <;> simp_all [Export.isReference]
      have hnone : placedExports name [(key, .reference target)] = [] := rfl
      rw [hnone, visit_reference]
      cases hnext : c.get? target with
      | none => exact ⟨[], Leg.rest w⟩
      | some next => exact henter next (OrderedMap.mem_values_of_get? hnext) w
  | false =>
      have hone : placedExports name [(key, e)] = [(name, key, e)] := by
        simp [placedExports, he]
      rw [hone, visit_of_not_isReference steps name w key he]
      exact ⟨[],
        { visited := rfl
          known := by simp
          nodup := id
          recorded := ⟨[(name, key, e)], List.Perm.refl _, rfl⟩ }⟩

theorem exists_leg_visits {steps : Nat}
    (henter : ∀ m ∈ c.modules.values, ∀ w : Walk, ∃ modules,
      Leg c w (enter c steps m w) modules (modules.flatMap ModuleDeclaration.exports))
    (name : String) (attributes : List (String × Export)) (w : Walk) :
    ∃ modules, Leg c w (attributes.foldl (visit c steps name) w) modules
      (placedExports name attributes ++ modules.flatMap ModuleDeclaration.exports) := by
  induction attributes generalizing w with
  | nil => exact ⟨[], Leg.rest w⟩
  | cons entry attributes ih =>
      obtain ⟨first, hfirst⟩ := exists_leg_visit henter name entry w
      obtain ⟨others, hothers⟩ := ih (visit c steps name w entry)
      have hexports : placedExports name (entry :: attributes) =
          placedExports name [entry] ++ placedExports name attributes := by
        rw [placedExports, placedExports, placedExports, ← List.map_append, ← List.filter_append,
          List.singleton_append]
      refine ⟨first ++ others, (hfirst.trans hothers).perm ?_⟩
      -- what a reference leads to was recorded between the exports of the module itself
      rw [hexports, List.flatMap_append, List.append_assoc, List.append_assoc]
      refine List.Perm.append_left _ ?_
      rw [← List.append_assoc, ← List.append_assoc]
      exact List.Perm.append_right _ List.perm_append_comm

/-- Entering a module: it and what it leads to are recorded completely, or nothing happens. -/
theorem exists_leg_enter (steps : Nat) :
    ∀ m ∈ c.modules.values, ∀ w : Walk, ∃ modules,
      Leg c w (enter c steps m w) modules (modules.flatMap ModuleDeclaration.exports) := by
  induction steps with
  | zero => exact fun m _ w => ⟨[], Leg.rest w⟩
  | succ steps ih =>
      intro m hm w
      rw [enter_succ]
      cases hvisited : w.visited.contains m.name with
      | true => exact ⟨[], Leg.rest w⟩
      | false =>
          have hfresh : m.name ∉ w.visited := by simpa using hvisited
          have hstart : Leg c w { w with visited := m.name :: w.visited } [m] [] :=
            { visited := rfl
              known := by simpa using hm
              nodup := fun hnodup => List.nodup_cons.mpr ⟨hfresh, hnodup⟩
              recorded := ⟨[], List.Perm.refl [], rfl⟩ }
          obtain ⟨modules, hmodules⟩ := exists_leg_visits ih m.name m.attributes.entries
            { w with visited := m.name :: w.visited }
          exact ⟨m :: modules, hstart.trans hmodules⟩

/-- Only the depth can keep a module from being entered, and the roots have none. -/
theorem mem_visited_enter (steps : Nat) {m : ModuleDeclaration} (w : Walk) :
    m.name ∈ (enter c (steps + 1) m w).visited := by
  rw [enter_succ]
  cases hvisited : w.visited.contains m.name with
  | true => simpa using hvisited
  | false =>
      obtain ⟨modules, hmodules⟩ := exists_leg_visits (exists_leg_enter (c := c) steps) m.name
        m.attributes.entries { w with visited := m.name :: w.visited }
      exact hmodules.mem_visited List.mem_cons_self

theorem exists_leg_roots (steps : Nat) (roots : List ModuleDeclaration)
    (hroots : ∀ m ∈ roots, m ∈ c.modules.values) (w : Walk) :
    ∃ modules, Leg c w (roots.foldl (fun w m => enter c (steps + 1) m w) w) modules
        (modules.flatMap ModuleDeclaration.exports) ∧
      ∀ m ∈ roots, m.name ∈ (roots.foldl (fun w m => enter c (steps + 1) m w) w).visited := by
  induction roots generalizing w with
  | nil => exact ⟨[], Leg.rest w, by simp⟩
  | cons m roots ih =>
      rw [List.forall_mem_cons] at hroots
      obtain ⟨first, hfirst⟩ := exists_leg_enter (steps + 1) m hroots.1 w
      obtain ⟨others, hothers, hvisited⟩ := ih hroots.2 (enter c (steps + 1) m w)
      refine ⟨first ++ others, ?_, ?_⟩
      · rw [List.flatMap_append]
        exact hfirst.trans hothers
      · rw [List.forall_mem_cons]
        exact ⟨hothers.mem_visited (mem_visited_enter steps w), hvisited⟩

/-- Walking from every module records the exports of the catalogue, each once. -/
theorem exists_order_everywhere (hc : c.WellNamed) (depth : Nat) :
    ∃ order : List PlacedExport, order.Perm c.exports ∧
      (everywhere c depth).found = order.foldl Findings.record .none := by
  obtain ⟨modules, hleg, hvisited⟩ :=
    exists_leg_roots (c := c) depth c.modules.values (fun m hm => hm) start
  have hnames : (everywhere c depth).visited =
      (modules.map ModuleDeclaration.name).reverse := by
    rw [everywhere, hleg.visited]
    exact List.append_nil _
  have hnodup : (modules.map ModuleDeclaration.name).Nodup := by
    rw [← List.nodup_reverse, ← hnames]
    exact hleg.nodup List.nodup_nil
  have hmem : ∀ m, m ∈ modules ↔ m ∈ c.modules.values := by
    intro m
    refine ⟨hleg.known m, fun hm => ?_⟩
    have hname : m.name ∈ modules.map ModuleDeclaration.name := by
      rw [← List.mem_reverse, ← hnames]
      exact hvisited m hm
    obtain ⟨entered, hentered, heq⟩ := List.mem_map.mp hname
    have hsame := List.inj_on_of_nodup_map hc.names_nodup (hleg.known entered hentered) hm heq
    exact hsame ▸ hentered
  have hperm : modules.Perm c.modules.values :=
    (List.perm_ext_iff_of_nodup hnodup.of_map hc.names_nodup.of_map).mpr hmem
  obtain ⟨order, horder, hfound⟩ := hleg.recorded
  exact ⟨order, horder.trans (hperm.flatMap_right _), hfound⟩

/-- Walking from every module of a catalogue, with whatever references and whatever depth, finds
each declared service, implementation, model and issue, and finds it once.  So another catalogue
with the same exports gives the same, in whatever order its modules were registered, whatever they
refer to, and with whatever depth. -/
theorem everywhere_finds_all_declared (documents : List Document) (depth : Nat) :
    (everywhere (documents.foldl Catalogue.extend .empty) depth).found.CompleteFor
        (documents.foldl Catalogue.extend .empty) ∧
      ∀ (others : List Document) (otherDepth : Nat),
        (documents.foldl Catalogue.extend .empty).exports.Perm
          (others.foldl Catalogue.extend .empty).exports →
        (everywhere (documents.foldl Catalogue.extend .empty) depth).found.Agrees
          (everywhere (others.foldl Catalogue.extend .empty) otherDepth).found := by
  have hcomplete : ∀ (documents : List Document) (depth : Nat),
      (everywhere (documents.foldl Catalogue.extend .empty) depth).found.CompleteFor
        (documents.foldl Catalogue.extend .empty) := by
    intro documents depth
    obtain ⟨order, hperm, hfound⟩ :=
      exists_order_everywhere (Catalogue.wellNamed_of_documents documents) depth
    rw [hfound]
    exact Findings.completeFor_of_perm hperm
  refine ⟨hcomplete documents depth, ?_⟩
  intro others otherDepth hexports
  exact (hcomplete documents depth).agrees (hcomplete others otherDepth) hexports

end Walk

namespace WalkWitness

def serviceClass : ClassDeclaration where
  name := "Demo"
  module := "app.service"
  capability := .serviceBase
  implementationName := none
  classDoc := none
  webNamespace := none
  members := .empty

/-- Two modules that refer to each other, to themselves and to one that nobody knows. -/
def tangled : Document where
  modules := [
    ⟨"app", ⟨[("self", .reference "app"), ("service", .reference "app.service"),
      ("tk", .broken "No module named '_tkinter'")]⟩⟩,
    ⟨"app.service", ⟨[("back", .reference "app"), ("gone", .reference "app.nowhere"),
      ("Demo", .declaration serviceClass)]⟩⟩]

/-- The same modules without references, in the other order. -/
def untangled : Document where
  modules := [
    ⟨"app.service", ⟨[("Demo", .declaration serviceClass)]⟩⟩,
    ⟨"app", ⟨[("tk", .broken "No module named '_tkinter'")]⟩⟩]

theorem tangled_and_untangled_agree :
    (Catalogue.empty.extend tangled).exports.Perm (Catalogue.empty.extend untangled).exports ∧
      (Walk.everywhere (Catalogue.empty.extend tangled) 0).found.Agrees
        (Walk.everywhere (Catalogue.empty.extend untangled) 10).found := by
  have hexports : (Catalogue.empty.extend tangled).exports.Perm
      (Catalogue.empty.extend untangled).exports := List.Perm.swap _ _ []
  exact ⟨hexports, (Walk.everywhere_finds_all_declared [tangled] 0).2 [untangled] 10 hexports⟩

end WalkWitness

end ServiceGen

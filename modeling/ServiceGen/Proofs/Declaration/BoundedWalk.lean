import ServiceGen.Proofs.Declaration.Walk

/-!
What a walk from one module inspects.  A module is inspected where the walk meets it first: when the
chain of references that leads there is as long as the walk may go, what the module refers to is
left out, although a shorter chain may lead to it as well.  So the walk stays within its depth, and
it is complete where no chain without repetitions meets a module just at that depth.
-/

namespace ServiceGen

namespace Catalogue

/-- The module has a reference that leads to the other one. -/
def Refers (c : Catalogue) (m next : ModuleDeclaration) : Prop :=
  ∃ key target, (key, Export.reference target) ∈ m.attributes.entries ∧
    c.get? target = some next

/-- A chain of references leads from `root` through the modules of a list, the last one first, to a
module; there are as many references as modules in the list. -/
inductive Leads (c : Catalogue) (root : ModuleDeclaration) :
    List ModuleDeclaration → ModuleDeclaration → Prop
  | start : Leads c root [] root
  | step {passed : List ModuleDeclaration} {m next : ModuleDeclaration} :
      Leads c root passed m → c.Refers m next → Leads c root (m :: passed) next

/-- The chain meets no module twice. -/
def LeadsOnce (c : Catalogue) (root : ModuleDeclaration) (passed : List ModuleDeclaration)
    (m : ModuleDeclaration) : Prop :=
  c.Leads root passed m ∧ ((m :: passed).map ModuleDeclaration.name).Nodup

/-- Some modules as a catalogue of their own. -/
def ofModules (modules : List ModuleDeclaration) : Catalogue :=
  ⟨⟨modules.map fun m => (m.name, m)⟩⟩

theorem exports_ofModules (modules : List ModuleDeclaration) :
    (ofModules modules).exports = modules.flatMap ModuleDeclaration.exports := by
  rw [exports, ofModules, OrderedMap.values, List.map_map]
  exact congrArg _ (List.map_id modules)

theorem Refers.mem_values {c : Catalogue} {m next : ModuleDeclaration} (h : c.Refers m next) :
    next ∈ c.modules.values := by
  obtain ⟨key, target, -, hnext⟩ := h
  exact OrderedMap.mem_values_of_get? hnext

theorem Leads.mem_values {c : Catalogue} {root m : ModuleDeclaration}
    {passed : List ModuleDeclaration} (hroot : root ∈ c.modules.values)
    (h : c.Leads root passed m) : m ∈ c.modules.values := by
  cases h with
  | start => exact hroot
  | step _ hrefers => exact hrefers.mem_values

end Catalogue

namespace Walk

variable {c : Catalogue} {root : ModuleDeclaration} {depth : Nat}

/-- The module was met at the end of a chain without repetitions that is no longer than `depth`, and
when the chain is shorter, all that the module refers to has been visited. -/
def Met (c : Catalogue) (root : ModuleDeclaration) (depth : Nat) (visited : List String)
    (m : ModuleDeclaration) : Prop :=
  ∃ passed, c.LeadsOnce root passed m ∧ passed.length ≤ depth ∧
    (passed.length < depth → ∀ next, c.Refers m next → next.name ∈ visited)

theorem Met.mono {visited visited' : List String} {m : ModuleDeclaration}
    (h : Met c root depth visited m) (hsub : visited ⊆ visited') :
    Met c root depth visited' m := by
  obtain ⟨passed, honce, hlength, hrefers⟩ := h
  exact ⟨passed, honce, hlength, fun hshort next hnext => hsub (hrefers hshort next hnext)⟩

/-- From `w` to `w'` the walk forgot no module, and met the new ones. -/
structure Explores (c : Catalogue) (root : ModuleDeclaration) (depth : Nat) (w w' : Walk) :
    Prop where
  kept : w.visited ⊆ w'.visited
  met : ∀ name ∈ w'.visited, name ∈ w.visited ∨
    ∃ m ∈ c.modules.values, m.name = name ∧ Met c root depth w'.visited m

namespace Explores

variable {w w' w'' : Walk}

theorem rest (w : Walk) : Explores c root depth w w where
  kept := List.Subset.refl _
  met := fun _ hname => .inl hname

theorem trans (h : Explores c root depth w w') (h' : Explores c root depth w' w'') :
    Explores c root depth w w'' where
  kept := List.Subset.trans h.kept h'.kept
  met := by
    intro name hname
    rcases h'.met name hname with hold | hnew
    · rcases h.met name hold with hold | ⟨m, hm, hmname, hmet⟩
      · exact .inl hold
      · exact .inr ⟨m, hm, hmname, hmet.mono h'.kept⟩
    · exact .inr hnew

end Explores

/-- A walk that stands at the end of a chain: every module of the chain was entered, and `steps`
says how much further it may go. -/
structure StandsAt (c : Catalogue) (root : ModuleDeclaration) (depth steps : Nat)
    (passed : List ModuleDeclaration) (m : ModuleDeclaration) (w : Walk) : Prop where
  leads : c.Leads root passed m
  once : (passed.map ModuleDeclaration.name).Nodup
  visited : ∀ p ∈ passed, p.name ∈ w.visited
  steps : passed.length + steps = depth + 1

/-- Entering a module explores from there, unless no step is left. -/
def EntersWith (c : Catalogue) (root : ModuleDeclaration) (depth steps : Nat) : Prop :=
  ∀ passed m w, StandsAt c root depth steps passed m w →
    Explores c root depth w (enter c steps m w) ∧
      (0 < steps → m.name ∈ (enter c steps m w).visited)

/-- One attribute of the module at which the walk stands. -/
theorem explores_visit {steps : Nat} (henter : EntersWith c root depth steps)
    {passed : List ModuleDeclaration} {m : ModuleDeclaration} {w : Walk}
    (honce : c.LeadsOnce root passed m) (hsteps : passed.length + 1 + steps = depth + 1)
    (hvisited : ∀ p ∈ m :: passed, p.name ∈ w.visited) {entry : String × Export}
    (hentry : entry ∈ m.attributes.entries) :
    Explores c root depth w (visit c steps m.name w entry) ∧
      (0 < steps → ∀ target next, entry.2 = .reference target → c.get? target = some next →
        next.name ∈ (visit c steps m.name w entry).visited) := by
  obtain ⟨key, e⟩ := entry
  cases he : e.isReference with
  | false =>
      rw [visit_of_not_isReference steps m.name w key he]
      refine ⟨⟨List.Subset.refl _, fun _ hname => .inl hname⟩, ?_⟩
      rintro - target - rfl -
      cases he
  | true =>
      obtain ⟨target, rfl⟩ : ∃ target, e = .reference target := by
        cases e <;> simp_all [Export.isReference]
      rw [visit_reference]
      cases hget : c.get? target with
      | none =>
          refine ⟨.rest w, ?_⟩
          rintro - _ next heq hnext
          obtain rfl := Export.reference.inj heq
          cases hget.symm.trans hnext
      | some next =>
          have hstands : StandsAt c root depth steps (m :: passed) next w :=
            { leads := .step honce.1 ⟨key, target, hentry, hget⟩
              once := honce.2
              visited := hvisited
              steps := hsteps }
          obtain ⟨hexplores, hmem⟩ := henter (m :: passed) next w hstands
          refine ⟨hexplores, fun hpos _ other heq hother => ?_⟩
          obtain rfl := Export.reference.inj heq
          obtain rfl := Option.some.inj (hget.symm.trans hother)
          exact hmem hpos

theorem explores_visits {steps : Nat} (henter : EntersWith c root depth steps)
    {passed : List ModuleDeclaration} {m : ModuleDeclaration}
    (honce : c.LeadsOnce root passed m) (hsteps : passed.length + 1 + steps = depth + 1)
    (attributes : List (String × Export)) (hattributes : attributes ⊆ m.attributes.entries)
    (w : Walk) (hvisited : ∀ p ∈ m :: passed, p.name ∈ w.visited) :
    Explores c root depth w (attributes.foldl (visit c steps m.name) w) ∧
      (0 < steps → ∀ entry ∈ attributes, ∀ target next, entry.2 = .reference target →
        c.get? target = some next →
          next.name ∈ (attributes.foldl (visit c steps m.name) w).visited) := by
  induction attributes generalizing w with
  | nil => exact ⟨.rest w, by simp⟩
  | cons entry attributes ih =>
      rw [List.cons_subset] at hattributes
      obtain ⟨hfirst, htargets⟩ := explores_visit henter honce hsteps hvisited hattributes.1
      obtain ⟨hothers, hlater⟩ := ih hattributes.2 (visit c steps m.name w entry)
        fun p hp => hfirst.kept (hvisited p hp)
      refine ⟨hfirst.trans hothers, fun hpos => ?_⟩
      rw [List.forall_mem_cons]
      refine ⟨fun target next heq hnext => ?_, hlater hpos⟩
      exact hothers.kept (htargets hpos target next heq hnext)

theorem entersWith (hroot : root ∈ c.modules.values) (steps : Nat) :
    EntersWith c root depth steps := by
  induction steps with
  | zero => exact fun passed m w _ => ⟨.rest w, fun h => absurd h (Nat.lt_irrefl 0)⟩
  | succ steps ih =>
      intro passed m w hstands
      refine ⟨?_, fun _ => mem_visited_enter steps w⟩
      rw [enter_succ]
      cases hcontains : w.visited.contains m.name with
      | true => exact .rest w
      | false =>
          have hfresh : m.name ∉ w.visited := by simpa using hcontains
          have honce : c.LeadsOnce root passed m := by
            refine ⟨hstands.leads, List.nodup_cons.mpr ⟨fun hmem => ?_, hstands.once⟩⟩
            obtain ⟨p, hp, hname⟩ := List.mem_map.mp hmem
            exact hfresh (hname ▸ hstands.visited p hp)
          have hsteps := hstands.steps
          obtain ⟨hexplores, htargets⟩ := explores_visits ih honce (by omega)
            m.attributes.entries (List.Subset.refl _) { w with visited := m.name :: w.visited }
            (by
              rw [List.forall_mem_cons]
              exact ⟨List.mem_cons_self, fun p hp => List.mem_cons_of_mem _ (hstands.visited p hp)⟩)
          refine ⟨fun name hname => hexplores.kept (List.mem_cons_of_mem _ hname), ?_⟩
          intro name hname
          rcases hexplores.met name hname with hold | hnew
          · rcases List.mem_cons.mp hold with rfl | hold
            · refine .inr ⟨m, hstands.leads.mem_values hroot, rfl, passed, honce, by omega, ?_⟩
              rintro hshort next ⟨key, target, hentry, hnext⟩
              exact htargets (by omega) (key, .reference target) hentry target next rfl hnext
            · exact .inl hold
          · exact .inr hnew

theorem fromModule_eq {name : String} (hget : c.get? name = some root) :
    fromModule c depth name = enter c (depth + 1) root start := by
  rw [fromModule, hget]

theorem explores_fromModule {name : String} (hget : c.get? name = some root) :
    Explores c root depth start (fromModule c depth name) := by
  rw [fromModule_eq hget]
  have hstands : StandsAt c root depth (depth + 1) [] root start :=
    { leads := .start
      once := List.nodup_nil
      visited := by simp
      steps := Nat.zero_add _ }
  exact (entersWith (OrderedMap.mem_values_of_get? hget) (depth + 1) [] root start hstands).1

/-- No chain without repetitions meets the module when the walk can go no further. -/
def ClearOfEnd (c : Catalogue) (root : ModuleDeclaration) (depth : Nat) (m : ModuleDeclaration) :
    Prop :=
  ∀ passed, c.LeadsOnce root passed m → passed.length ≠ depth

theorem met_of_mem_visited (hc : c.WellNamed) {name : String} (hget : c.get? name = some root)
    {m : ModuleDeclaration} (hm : m ∈ c.modules.values)
    (hvisited : m.name ∈ (fromModule c depth name).visited) :
    Met c root depth (fromModule c depth name).visited m := by
  rcases (explores_fromModule hget).met m.name hvisited with hnone | ⟨other, hother, heq, hmet⟩
  · cases hnone
  · have hsame := List.inj_on_of_nodup_map hc.names_nodup hother hm heq
    exact hsame ▸ hmet

/-- A chain all of whose modules are met early enough is followed to its end. -/
theorem mem_visited_of_leads (hc : c.WellNamed) {name : String} (hget : c.get? name = some root)
    {passed : List ModuleDeclaration} {m : ModuleDeclaration} (hleads : c.Leads root passed m)
    (hclear : ∀ p ∈ passed, ClearOfEnd c root depth p) :
    m.name ∈ (fromModule c depth name).visited := by
  induction hleads with
  | start =>
      rw [fromModule_eq hget]
      exact mem_visited_enter depth start
  | @step passed m next hleads hrefers ih =>
      rw [List.forall_mem_cons] at hclear
      have hm := hleads.mem_values (OrderedMap.mem_values_of_get? hget)
      obtain ⟨others, honce, hlength, hnext⟩ := met_of_mem_visited hc hget hm (ih hclear.2)
      have hne := hclear.1 others honce
      exact hnext (by omega) next hrefers

/-- What a walk from `root` has done when it inspected `modules`, in this order: none of them twice,
each within reach, and none left out to which a chain leads whose modules are met early enough.
What it found is what these modules declare. -/
structure Inspects (c : Catalogue) (root : ModuleDeclaration) (depth : Nat)
    (modules : List ModuleDeclaration) (w : Walk) : Prop where
  visited : w.visited = (modules.map ModuleDeclaration.name).reverse
  nodup : (modules.map ModuleDeclaration.name).Nodup
  registered : ∀ m ∈ modules, m ∈ c.modules.values
  reached : ∀ m ∈ modules, ∃ passed, c.LeadsOnce root passed m ∧ passed.length ≤ depth
  complete : ∀ passed m, c.Leads root passed m → (∀ p ∈ passed, ClearOfEnd c root depth p) →
    m ∈ modules
  found : w.found.CompleteFor (.ofModules modules)

/-- A walk from one module inspects only modules to which a chain of at most `depth` references
leads, each once, and finds what they declare.  It inspects every module to which a chain leads none
of whose earlier modules is met, on another chain without repetitions, just at the full depth. -/
theorem fromModule_inspects_reachable (documents : List Document) (depth : Nat) {name : String}
    {root : ModuleDeclaration}
    (hroot : (documents.foldl Catalogue.extend .empty).get? name = some root) :
    ∃ modules, Inspects (documents.foldl Catalogue.extend .empty) root depth modules
      (fromModule (documents.foldl Catalogue.extend .empty) depth name) := by
  have hc := Catalogue.wellNamed_of_documents documents
  generalize documents.foldl Catalogue.extend .empty = c at hc hroot ⊢
  have hrootMem := OrderedMap.mem_values_of_get? hroot
  obtain ⟨modules, hleg⟩ := exists_leg_enter (c := c) (depth + 1) root hrootMem start
  rw [← fromModule_eq hroot] at hleg
  have hvisited := hleg.visited.trans (List.append_nil _)
  have hmem : ∀ m ∈ c.modules.values, m.name ∈ (fromModule c depth name).visited → m ∈ modules := by
    intro m hm hname
    rw [hvisited, List.mem_reverse] at hname
    obtain ⟨entered, hentered, heq⟩ := List.mem_map.mp hname
    exact List.inj_on_of_nodup_map hc.names_nodup (hleg.known entered hentered) hm heq ▸ hentered
  refine ⟨modules,
    { visited := hvisited
      nodup := ?_
      registered := hleg.known
      reached := ?_
      complete := ?_
      found := ?_ }⟩
  · rw [← List.nodup_reverse, ← hvisited]
    exact hleg.nodup List.nodup_nil
  · intro m hm
    have hname : m.name ∈ (fromModule c depth name).visited := by
      rw [hvisited, List.mem_reverse]
      exact List.mem_map_of_mem hm
    obtain ⟨passed, honce, hlength, -⟩ := met_of_mem_visited hc hroot (hleg.known m hm) hname
    exact ⟨passed, honce, hlength⟩
  · intro passed m hleads hclear
    exact hmem m (hleads.mem_values hrootMem) (mem_visited_of_leads hc hroot hleads hclear)
  · obtain ⟨order, hperm, hfound⟩ := hleg.recorded
    rw [hfound]
    exact Findings.completeFor_of_perm (hperm.trans (.of_eq (Catalogue.exports_ofModules _).symm))

end Walk

namespace BoundedWalkWitness

open Walk

/-- A module that refers to others, each under its own name. -/
def hub (name : String) (targets : List String) : ModuleDeclaration :=
  ⟨name, ⟨targets.map fun target => (target, .reference target)⟩⟩

def serviceModule : ModuleDeclaration :=
  ⟨"app.service", ⟨[("Demo", .declaration WalkWitness.serviceClass)]⟩⟩

/-- A project in which `app` refers to `app.old` and `app.api`, and `app.api` to a service. -/
def project (targets oldTargets : List String) : Document where
  modules := [hub "app" targets, hub "app.old" oldTargets, hub "app.api" ["app.service"],
    serviceModule]

def catalogue (targets oldTargets : List String) : Catalogue :=
  Catalogue.empty.extend (project targets oldTargets)

theorem leads_to_service (oldTargets : List String) :
    (catalogue ["app.old", "app.api"] oldTargets).Leads (hub "app" ["app.old", "app.api"])
      [hub "app.api" ["app.service"], hub "app" ["app.old", "app.api"]] serviceModule := by
  refine .step (.step .start ⟨"app.api", "app.api", ?_, rfl⟩)
    ⟨"app.service", "app.service", ?_, rfl⟩
  · exact List.mem_cons_of_mem _ List.mem_cons_self
  · exact List.mem_cons_self

theorem exists_target_of_refers {c : Catalogue} {name : String} {targets : List String}
    {next : ModuleDeclaration} (h : c.Refers (hub name targets) next) :
    ∃ target ∈ targets, c.get? target = some next := by
  obtain ⟨key, target, hentry, hnext⟩ := h
  obtain ⟨other, hother, heq⟩ := List.mem_map.mp hentry
  cases heq
  exact ⟨_, hother, hnext⟩

/-- When `app.old` refers to nothing, two references lead from `app` to the service only. -/
theorem eq_service_of_leads {first second m : ModuleDeclaration}
    (h : (catalogue ["app.old", "app.api"] []).Leads (hub "app" ["app.old", "app.api"])
      [second, first] m) : m = serviceModule := by
  cases h with
  | step h hlast =>
      cases h with
      | step h hfirst =>
          cases h with
          | start =>
              obtain ⟨target, htarget, hsecond⟩ := exists_target_of_refers hfirst
              simp only [List.mem_cons, List.not_mem_nil, or_false] at htarget
              rcases htarget with rfl | rfl
              · obtain rfl : hub "app.old" [] = second := Option.some.inj hsecond
                obtain ⟨_, hnone, -⟩ := exists_target_of_refers hlast
                cases hnone
              · obtain rfl : hub "app.api" ["app.service"] = second := Option.some.inj hsecond
                obtain ⟨target, htarget, hget⟩ := exists_target_of_refers hlast
                obtain rfl := List.mem_singleton.mp htarget
                exact (Option.some.inj hget).symm

theorem service_within_reach :
    (catalogue ["app.old", "app.api"] []).get? "app" = some (hub "app" ["app.old", "app.api"]) ∧
      ∃ modules, Inspects (catalogue ["app.old", "app.api"] []) (hub "app" ["app.old", "app.api"]) 2
        modules (fromModule (catalogue ["app.old", "app.api"] []) 2 "app") ∧
          serviceModule ∈ modules := by
  have hroot : (catalogue ["app.old", "app.api"] []).get? "app" =
      some (hub "app" ["app.old", "app.api"]) := rfl
  have hclear : ∀ m, m ≠ serviceModule → ClearOfEnd (catalogue ["app.old", "app.api"] [])
      (hub "app" ["app.old", "app.api"]) 2 m := by
    rintro m hm passed ⟨hleads, -⟩ hlength
    obtain ⟨second, first, rfl⟩ := List.length_eq_two.mp hlength
    exact hm (eq_service_of_leads hleads)
  obtain ⟨modules, hinspects⟩ :=
    fromModule_inspects_reachable [project ["app.old", "app.api"] []] 2 hroot
  refine ⟨hroot, modules, hinspects, hinspects.complete _ _ (leads_to_service []) ?_⟩
  intro p hp
  refine hclear p ?_
  rintro rfl
  simp [hub, serviceModule] at hp

/-- The walk meets `app.api` by way of `app.old` first, where it can go no further, and then not
again, so that it misses the service behind it. -/
theorem not_all_reachable_inspected :
    ¬ ∀ (documents : List Document) (depth : Nat) (name : String) (root : ModuleDeclaration),
      (documents.foldl Catalogue.extend .empty).get? name = some root →
        ∀ passed m, (documents.foldl Catalogue.extend .empty).Leads root passed m →
          passed.length ≤ depth →
            m.name ∈ (fromModule (documents.foldl Catalogue.extend .empty) depth name).visited := by
  intro hall
  have hmem := hall [project ["app.old", "app.api"] ["app.api"]] 2 "app" _ rfl _ _
    (leads_to_service ["app.api"]) (Nat.le_refl 2)
  revert hmem
  decide

/-- With its references in the other order, the same project is inspected completely. -/
example : (fromModule (catalogue ["app.api", "app.old"] ["app.api"]) 2 "app").visited =
    ["app.old", "app.service", "app.api", "app"] := by
  decide

end BoundedWalkWitness

end ServiceGen

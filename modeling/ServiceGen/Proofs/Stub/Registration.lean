import Mathlib.Data.List.Basic
import ServiceGen.Proofs.Repeats
import ServiceGen.Proofs.Stub.ProjectBlocks

/-!
Regenerating one project of a server changes the block of that project in the registration file and
no other.  After any sequence of regenerations the file tells for every project which of them was
the last.
-/

namespace ServiceGen.Registration

variable {blocks : List ProjectBlock} {name body : String}

theorem update_of_mem (hname : name ∈ blocks.map (·.name)) (body : String) :
    update blocks name body =
      blocks.map fun old => if old.name = name then ⟨old.name, body⟩ else old := by
  have hany : blocks.any (·.name == name) = true := by simpa using hname
  simp only [update, hany, if_true, beq_iff_eq]

theorem update_of_notMem (hname : name ∉ blocks.map (·.name)) (body : String) :
    update blocks name body = blocks ++ [⟨name, body⟩] := by
  have hany : blocks.any (·.name == name) = false := by simpa using hname
  simp only [update, hany, Bool.false_eq_true, if_false]

theorem names_update_of_mem (hname : name ∈ blocks.map (·.name)) (body : String) :
    (update blocks name body).map (·.name) = blocks.map (·.name) := by
  rw [update_of_mem hname, List.map_map]
  apply List.map_congr_left
  intro old _
  simp only [Function.comp_apply]
  split <;> rfl

theorem names_update_of_notMem (hname : name ∉ blocks.map (·.name)) (body : String) :
    (update blocks name body).map (·.name) = blocks.map (·.name) ++ [name] := by
  rw [update_of_notMem hname, List.map_append]
  rfl

theorem mem_update {b : ProjectBlock} (hb : b ∈ update blocks name body) :
    b = ⟨name, body⟩ ∨ b ∈ blocks ∧ b.name ≠ name := by
  by_cases hname : name ∈ blocks.map (·.name)
  · rw [update_of_mem hname, List.mem_map] at hb
    obtain ⟨old, hold, rfl⟩ := hb
    by_cases heq : old.name = name
    · simp [heq]
    · simp [heq, hold]
  · rw [update_of_notMem hname, List.mem_append, List.mem_singleton] at hb
    rcases hb with hold | rfl
    · exact .inr ⟨hold, fun heq => hname (List.mem_map.mpr ⟨b, hold, heq⟩)⟩
    · exact .inl rfl

/-- Of two updates of one project the first leaves no trace. -/
theorem update_update (blocks : List ProjectBlock) (name first second : String) :
    update (update blocks name first) name second = update blocks name second := by
  by_cases hname : name ∈ blocks.map (·.name)
  · have hkept : name ∈ (update blocks name first).map (·.name) := by
      rwa [names_update_of_mem hname]
    rw [update_of_mem hkept, update_of_mem hname, update_of_mem hname, List.map_map]
    apply List.map_congr_left
    intro old _
    by_cases heq : old.name = name <;> simp [heq]
  · have hadded : name ∈ (update blocks name first).map (·.name) := by
      simp [names_update_of_notMem hname]
    have hothers : blocks.map (fun old => if old.name = name then ⟨old.name, second⟩ else old) =
        blocks := by
      conv_rhs => rw [← List.map_id blocks]
      apply List.map_congr_left
      intro old hold
      have hne : old.name ≠ name := fun heq => hname (List.mem_map.mpr ⟨old, hold, heq⟩)
      simp [hne]
    rw [update_of_mem hadded, update_of_notMem hname, update_of_notMem hname, List.map_append,
      hothers]
    simp

theorem update_trimmed (blocks : List ProjectBlock) (name body : String) :
    (update blocks name body).map ProjectBlock.trimmed =
      update (blocks.map ProjectBlock.trimmed) name (Text.trim body) := by
  have hnames : (blocks.map ProjectBlock.trimmed).map (·.name) = blocks.map (·.name) := by
    rw [List.map_map]
    rfl
  by_cases hname : name ∈ blocks.map (·.name)
  · rw [update_of_mem hname, update_of_mem (hnames ▸ hname), List.map_map, List.map_map]
    apply List.map_congr_left
    intro old _
    by_cases heq : old.name = name <;> simp [heq, ProjectBlock.trimmed]
  · rw [update_of_notMem hname, update_of_notMem (hnames ▸ hname), List.map_append]
    rfl

section Regeneration

variable {existing : String} {b : ProjectBlock}

theorem registration_eq (existing name body : String) :
    registration existing name body = fileText (update (projectBlocks existing) name body) :=
  rfl

/-- One regeneration is an update of the blocks of the file. -/
theorem projectBlocks_registration
    (hexisting : ∀ old ∈ projectBlocks existing, Text.allBlank old.name = false)
    (hb : b.Printable) :
    projectBlocks (registration existing b.name b.body) =
      update (projectBlocks existing) b.name (Text.trim b.body) := by
  have hprintable : ∀ new ∈ update (projectBlocks existing) b.name b.body, new.Printable := by
    intro new hnew
    rcases mem_update hnew with rfl | ⟨hold, -⟩
    · exact hb
    · exact (printable_of_mem_projectBlocks hold (hexisting new hold)).1
  rw [registration_eq, projectBlocks_fileText hprintable, update_trimmed,
    map_trimmed_projectBlocks hexisting]

theorem registration_registration
    (hexisting : ∀ old ∈ projectBlocks existing, Text.allBlank old.name = false)
    (hb : b.Printable) :
    registration (registration existing b.name b.body) b.name b.body =
      registration existing b.name b.body := by
  rw [registration_eq, projectBlocks_registration hexisting hb, update_update, registration_eq]

/-- The file after a sequence of regenerations, each with the name of its project and its body. -/
def regenerate (existing : String) (steps : List ProjectBlock) : String :=
  steps.foldl (fun text step => registration text step.name step.body) existing

theorem regenerate_concat (existing : String) (steps : List ProjectBlock) (step : ProjectBlock) :
    regenerate existing (steps ++ [step]) =
      registration (regenerate existing steps) step.name step.body := by
  rw [regenerate, List.foldl_append]
  rfl

end Regeneration

/-- What the blocks of a file say about the regenerations that made it: every project stands in it
once, in the order of the first regeneration of each, and with the body of its last one. -/
structure Records (steps blocks : List ProjectBlock) : Prop where
  once : (blocks.map (·.name)).Nodup
  order : blocks.map (·.name) = (steps.map (·.name)).eraseDups
  latest : ∀ b ∈ blocks, ∃ before last after, steps = before ++ last :: after ∧
    last.name = b.name ∧ (∀ later ∈ after, later.name ≠ b.name) ∧ b.body = Text.trim last.body

theorem Records.nil : Records [] [] :=
  ⟨List.nodup_nil, rfl, by simp⟩

theorem Records.update {steps blocks : List ProjectBlock} (h : Records steps blocks)
    (step : ProjectBlock) :
    Records (steps ++ [step]) (update blocks step.name (Text.trim step.body)) := by
  have hseen : step.name ∈ blocks.map (·.name) ↔ step.name ∈ steps.map (·.name) := by
    rw [h.order, List.mem_eraseDups]
  refine ⟨?_, ?_, ?_⟩
  · by_cases hname : step.name ∈ blocks.map (·.name)
    · rw [names_update_of_mem hname]
      exact h.once
    · rw [names_update_of_notMem hname]
      exact List.nodup_append.mpr ⟨h.once, by simp, by simpa using hname⟩
  · rw [List.map_append, List.map_singleton, eraseDups_concat, ← h.order]
    by_cases hname : step.name ∈ blocks.map (·.name)
    · rw [names_update_of_mem hname, if_pos (hseen.mp hname)]
    · rw [names_update_of_notMem hname, if_neg (fun hmem => hname (hseen.mpr hmem))]
  · intro b hb
    rcases mem_update hb with rfl | ⟨hold, hne⟩
    · exact ⟨steps, step, [], rfl, rfl, by simp, rfl⟩
    · obtain ⟨before, last, after, rfl, hlast, hafter, hbody⟩ := h.latest b hold
      refine ⟨before, last, after ++ [step], by simp, hlast, ?_, hbody⟩
      intro later hlater
      rcases List.mem_append.mp hlater with hmem | hmem
      · exact hafter later hmem
      · rw [List.mem_singleton.mp hmem]
        exact hne.symm

theorem Records.visible {steps blocks : List ProjectBlock} (h : Records steps blocks)
    (hsteps : ∀ step ∈ steps, step.Printable) :
    ∀ b ∈ blocks, Text.allBlank b.name = false := by
  intro b hb
  obtain ⟨before, last, after, rfl, hlast, -, -⟩ := h.latest b hb
  rw [← hlast]
  exact (hsteps last (by simp)).name_visible

theorem records_regenerate {steps : List ProjectBlock}
    (hsteps : ∀ step ∈ steps, step.Printable) :
    Records steps (projectBlocks (regenerate "" steps)) := by
  -- the last regeneration works on the file that the earlier ones have left
  induction steps using List.reverseRecOn with
  | nil => exact Records.nil
  | append_singleton steps step ih =>
      have hbefore : ∀ old ∈ steps, old.Printable := fun old hold =>
        hsteps old (List.mem_append_left _ hold)
      have hrecords := ih hbefore
      rw [regenerate_concat,
        projectBlocks_registration (hrecords.visible hbefore) (hsteps step (by simp))]
      exact hrecords.update step

/-- Regenerating a project replaces the bodies of the blocks that have its name, or adds a block
when there is none, and does nothing the second time.  From an empty file on, the file records
every sequence of regenerations. -/
theorem regeneration_replaces_only_its_block (existing : String) (b : ProjectBlock)
    (steps : List ProjectBlock)
    (hexisting : ∀ old ∈ projectBlocks existing, Text.allBlank old.name = false)
    (hb : b.Printable) (hsteps : ∀ step ∈ steps, step.Printable) :
    (b.name ∈ (projectBlocks existing).map (·.name) →
      projectBlocks (registration existing b.name b.body) =
        (projectBlocks existing).map fun old =>
          if old.name = b.name then ⟨old.name, Text.trim b.body⟩ else old) ∧
    (b.name ∉ (projectBlocks existing).map (·.name) →
      projectBlocks (registration existing b.name b.body) =
        projectBlocks existing ++ [⟨b.name, Text.trim b.body⟩]) ∧
    registration (registration existing b.name b.body) b.name b.body =
      registration existing b.name b.body ∧
    Records steps (projectBlocks (regenerate "" steps)) := by
  have hstep := projectBlocks_registration hexisting hb
  refine ⟨?_, ?_, registration_registration hexisting hb, records_regenerate hsteps⟩
  · intro hname
    rw [hstep, update_of_mem hname]
  · intro hname
    rw [hstep, update_of_notMem hname]

namespace RegenerationWitness

/-- A file that somebody has edited: a block on a single line, which its closing mark ends. -/
def edited : String := "# project: shop # end project\n"

def shop : ProjectBlock := ⟨"shop", "\nfrom .shop import ShopServicer\n"⟩

/-- The project is generated, then another one whose body mentions a project, then the first one
again. -/
def history : List ProjectBlock := [⟨"shop", "pass"⟩, ⟨"bank", "# project: shop\npass"⟩, shop]

theorem shop_printable : shop.Printable :=
  ⟨by decide +kernel, by decide +kernel, by decide +kernel, by decide +kernel⟩

theorem history_printable : ∀ step ∈ history, step.Printable := by
  simp only [history, List.forall_mem_cons, List.not_mem_nil, false_implies, implies_true, and_true]
  exact ⟨⟨by decide +kernel, by decide +kernel, by decide +kernel, by decide +kernel⟩,
    ⟨by decide +kernel, by decide +kernel, by decide +kernel, by decide +kernel⟩, shop_printable⟩

theorem edited_file_is_regenerated :
    projectBlocks edited = [⟨"shop", ""⟩] ∧
    projectBlocks (registration edited shop.name shop.body) =
      [⟨"shop", "from .shop import ShopServicer"⟩] ∧
    Records history (projectBlocks (regenerate "" history)) := by
  have hedited : projectBlocks edited = [⟨"shop", ""⟩] := by decide +kernel
  obtain ⟨hreplaced, -, -, hrecords⟩ := regeneration_replaces_only_its_block edited shop history
    (by decide +kernel) shop_printable history_printable
  refine ⟨hedited, ?_, hrecords⟩
  rw [hreplaced (by decide +kernel), hedited]
  decide +kernel

end RegenerationWitness

end ServiceGen.Registration

import ServiceGen.CommandLine.Resolve
import ServiceGen.Proofs.Files.Path
import ServiceGen.Proofs.Text.Search

/-!
The name of a project is one component of a path, whatever the address is that it is taken from.
-/

namespace ServiceGen

variable {source name : String}

/-- What stands behind the last slash or colon of an address, when slashes at its end do not
count. -/
def lastPart (source : String) : String :=
  .ofList ((Text.pieces (fun c => c == '/' || c == ':') (withoutEndSlashes source)).getLast?.getD [])

/-- A name is the last part without the ending of repositories, when that can be the name of a
file. -/
theorem projectName?_eq_some_iff :
    projectName? source = some name ↔
      (Text.stripEnd? ".git" (lastPart source)).getD (lastPart source) = name ∧
        name ≠ "" ∧ name ≠ "." ∧ name ≠ ".." := by
  have heq : projectName? source =
      if (Text.stripEnd? ".git" (lastPart source)).getD (lastPart source) ∈ ["", ".", ".."] then none
      else some ((Text.stripEnd? ".git" (lastPart source)).getD (lastPart source)) := by
    simp only [projectName?, lastPart, List.mem_cons, List.not_mem_nil, or_false, ← or_assoc,
      Bool.or_eq_true, String.isEmpty_iff, beq_iff_eq]
  rw [heq]
  split
  · rename_i hmem
    refine ⟨nofun, ?_⟩
    rintro ⟨rfl, hempty, hdot, hdots⟩
    simp_all
  · rename_i hmem
    rw [Option.some.injEq]
    refine ⟨?_, And.left⟩
    rintro rfl
    simpa using hmem

theorem notMem_lastPart {c : Char} (hc : c = '/' ∨ c = ':') : c ∉ (lastPart source).toList := by
  rw [lastPart, String.toList_ofList]
  cases hlast : (Text.pieces (fun c => c == '/' || c == ':') (withoutEndSlashes source)).getLast? with
  | none => exact nofun
  | some piece =>
      intro hmem
      have hkept := ((Text.mem_pieces_iff _ c _).mp ⟨piece, List.mem_of_getLast? hlast, hmem⟩).2
      rcases hc with rfl | rfl <;> simp at hkept

theorem subset_of_stripEnd? (tail s : String) :
    ((Text.stripEnd? tail s).getD s).toList ⊆ s.toList := by
  cases hrest : Text.stripEnd? tail s with
  | none => exact fun _ hc => hc
  | some rest =>
      rw [Option.getD_some, Text.stripEnd?_eq_some_iff.mp hrest, String.toList_append]
      exact List.subset_append_left _ _

/-- The name of a project is the name of a file, without colons. -/
theorem isFileName_of_projectName? (h : projectName? source = some name) :
    Path.IsFileName name ∧ ':' ∉ name.toList := by
  obtain ⟨rfl, hempty, hdot, hdots⟩ := projectName?_eq_some_iff.mp h
  have hsubset := subset_of_stripEnd? ".git" (lastPart source)
  exact ⟨⟨fun hmem => notMem_lastPart (.inl rfl) (hsubset hmem), hempty, hdot, hdots⟩,
    fun hmem => notMem_lastPart (.inr rfl) (hsubset hmem)⟩

end ServiceGen

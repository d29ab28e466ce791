import ServiceGen.Proofs.CommandLine.ProjectName
import ServiceGen.Proofs.Stub.Registration

/-!
Which projects find their own block again in the registration file.  The name of a project is printed
as it is and read back without the blank characters around it, up to the end of its line.  So a
project recognises its block when its name is one line without such characters, and only then; with
any other name on one line it leaves another block behind each time it is generated.
-/

namespace ServiceGen.Registration

/-- The name is one line, without blank characters around it. -/
def Recognisable (name : String) : Prop :=
  Text.trim name = name ∧ '\n' ∉ name.toList

variable {existing name body : String} {b : ProjectBlock}

theorem recognisable_of_mem {text : String} (hname : name ∈ (projectBlocks text).map (·.name)) :
    Recognisable name := by
  obtain ⟨b, hb, rfl⟩ := List.mem_map.mp hname
  obtain ⟨htrim, hline, -, -⟩ := readable_of_mem_projectBlocks hb
  exact ⟨htrim, hline⟩

theorem visible_of_trim_ne {s : String} (h : Text.trim s ≠ "") : Text.allBlank s = false :=
  Bool.eq_false_iff.mpr fun hblank => h (Text.trim_eq_empty_iff.mpr hblank)

theorem visible_trim {s : String} (h : Text.allBlank s = false) :
    Text.allBlank (Text.trim s) = false := by
  apply visible_of_trim_ne
  rw [Text.trim_trim, ne_eq, Text.trim_eq_empty_iff, h]
  exact Bool.false_ne_true

theorem Recognisable.printable (hname : Recognisable name) (hne : name ≠ "")
    (hbody : ¬ closing.toList <:+: body.toList) : ProjectBlock.Printable ⟨name, body⟩ :=
  ⟨hname.1, hname.2, visible_of_trim_ne (hname.1.symm ▸ hne), hbody⟩

section Unrecognised

theorem update_of_unrecognised (hname : ¬ Recognisable name) (existing body : String) :
    update (projectBlocks existing) name body = projectBlocks existing ++ [⟨name, body⟩] :=
  update_of_notMem (fun hmem => hname (recognisable_of_mem hmem)) body

/-- Behind the blocks that were there stands the text of the new one. -/
theorem projectBlocks_of_unrecognised
    (hexisting : ∀ old ∈ projectBlocks existing, Text.allBlank old.name = false)
    (hname : ¬ Recognisable name) (body : String) :
    projectBlocks (registration existing name body) =
      projectBlocks existing ++ projectBlocks (blockText ⟨name, body⟩) := by
  have hfound : ∀ old ∈ projectBlocks existing, old.Printable := fun old hold =>
    (printable_of_mem_projectBlocks hold (hexisting old hold)).1
  have hread : (projectBlocks existing).map ProjectBlock.asRead = projectBlocks existing :=
    (List.map_congr_left fun old hold => (hfound old hold).asRead_eq).trans
      (map_trimmed_projectBlocks hexisting)
  rw [registration_eq, update_of_unrecognised hname,
    projectBlocks_fileText_append fun old hold => (hfound old hold).legible, hread,
    List.flatMap_singleton, ← projectBlocks_eq]

theorem fileText_append_cancel {before added : List ProjectBlock} :
    fileText (before ++ added ++ [b]) = fileText (before ++ [b]) ↔ added = [] := by
  constructor
  · intro heq
    rw [← String.toList_inj, toList_fileText, toList_fileText, List.append_assoc,
      List.flatMap_append, List.flatMap_append, List.flatMap_append, List.append_cancel_left_eq,
      List.append_cancel_left_eq, List.append_left_eq_self, List.flatMap_eq_nil_iff] at heq
    refine List.eq_nil_iff_forall_not_mem.mpr fun new hnew => ?_
    have hempty := heq new hnew
    simp [blockText] at hempty
  · rintro rfl
    rw [List.append_nil]

/-- A project that does not recognise its block registers another one, unless nothing at all is
read from the text of the first. -/
theorem registered_twice_iff_of_unrecognised
    (hexisting : ∀ old ∈ projectBlocks existing, Text.allBlank old.name = false)
    (hname : ¬ Recognisable name) (body : String) :
    registration (registration existing name body) name body = registration existing name body ↔
      projectBlocks (blockText ⟨name, body⟩) = [] := by
  rw [registration_eq (registration existing name body), update_of_unrecognised hname,
    projectBlocks_of_unrecognised hexisting hname, registration_eq, update_of_unrecognised hname]
  exact fileText_append_cancel

end Unrecognised

section Repeated

/-- The file after a project is generated several times, with the same body each time. -/
def repeated (existing : String) (b : ProjectBlock) (times : Nat) : String :=
  regenerate existing (List.replicate times b)

theorem repeated_succ (existing : String) (b : ProjectBlock) (times : Nat) :
    repeated existing b (times + 1) = registration (repeated existing b times) b.name b.body := by
  rw [repeated, List.replicate_succ', regenerate_concat, repeated]

/-- All generations of a printable block leave the file that the first of them leaves. -/
theorem repeated_of_printable
    (hexisting : ∀ old ∈ projectBlocks existing, Text.allBlank old.name = false)
    (hb : b.Printable) (times : Nat) :
    repeated existing b (times + 1) = registration existing b.name b.body := by
  induction times with
  | zero => rw [repeated_succ]; rfl
  | succ times ih => rw [repeated_succ, ih, registration_registration hexisting hb]

theorem count_names_of_printable
    (hexisting : ∀ old ∈ projectBlocks existing, Text.allBlank old.name = false)
    (hb : b.Printable) :
    ((projectBlocks (registration existing b.name b.body)).map (·.name)).count b.name =
      max 1 (((projectBlocks existing).map (·.name)).count b.name) := by
  rw [projectBlocks_registration hexisting hb]
  by_cases hname : b.name ∈ (projectBlocks existing).map (·.name)
  · rw [names_update_of_mem hname, Nat.max_eq_right (List.one_le_count_iff.mpr hname)]
  · rw [names_update_of_notMem hname, List.count_append, List.count_eq_zero.mpr hname,
      List.count_singleton_self]
    rfl

theorem projectBlocks_blockText (hb : b.Legible) : projectBlocks (blockText b) = [b.asRead] := by
  have hread := blocksFrom_blockTexts (List.forall_mem_singleton.mpr hb) []
  rw [List.flatMap_singleton, List.append_nil] at hread
  exact hread

/-- Each generation of a legible block that is not recognised adds one more block. -/
theorem projectBlocks_repeated
    (hexisting : ∀ old ∈ projectBlocks existing, Text.allBlank old.name = false)
    (hb : b.Legible) (hvisible : Text.allBlank b.name = false) (hname : ¬ Recognisable b.name)
    (times : Nat) :
    projectBlocks (repeated existing b times) =
      projectBlocks existing ++ List.replicate times b.asRead := by
  induction times with
  | zero => exact (List.append_nil _).symm
  | succ times ih =>
      have hbefore : ∀ old ∈ projectBlocks (repeated existing b times),
          Text.allBlank old.name = false := by
        intro old hold
        rw [ih, List.mem_append] at hold
        rcases hold with hold | hold
        · exact hexisting old hold
        · rw [List.eq_of_mem_replicate hold]
          exact visible_trim hvisible
      rw [repeated_succ, projectBlocks_of_unrecognised hbefore hname b.body, ih,
        projectBlocks_blockText hb, List.append_assoc, ← List.replicate_succ']

end Repeated

/-- A project finds its block again exactly when its name is one line without blank characters
around it.  Then it leaves one block behind, or as many as there were of its name, however often it
is generated; otherwise a second generation adds to the file whenever any block is read from the
text of the first, and on one line each generation adds a block. -/
theorem project_name_recognised_iff {source name existing body : String}
    (hname : projectName? source = some name)
    (hexisting : ∀ old ∈ projectBlocks existing, Text.allBlank old.name = false)
    (hbody : ¬ closing.toList <:+: body.toList) :
    (name ∈ (projectBlocks (registration existing name body)).map (·.name) ↔
      Recognisable name) ∧
    (registration (registration existing name body) name body = registration existing name body ↔
      Recognisable name ∨ projectBlocks (blockText ⟨name, body⟩) = []) ∧
    (Recognisable name → ∀ times,
      repeated existing ⟨name, body⟩ (times + 1) = registration existing name body ∧
        ((projectBlocks (registration existing name body)).map (·.name)).count name =
          max 1 (((projectBlocks existing).map (·.name)).count name)) ∧
    (¬ Recognisable name → '\n' ∉ name.toList → Text.allBlank name = false → ∀ times,
      projectBlocks (repeated existing ⟨name, body⟩ times) =
        projectBlocks existing ++ List.replicate times ⟨Text.trim name, Text.trim body⟩) := by
  have hne : name ≠ "" := (isFileName_of_projectName? hname).1.2.1
  have hprintable : Recognisable name → ProjectBlock.Printable ⟨name, body⟩ := fun hrecognised =>
    hrecognised.printable hne hbody
  refine ⟨⟨recognisable_of_mem, fun hrecognised => ?_⟩, ?_, fun hrecognised times => ?_,
    fun hunrecognised hline hvisible times => ?_⟩
  · have hcount := count_names_of_printable hexisting (hprintable hrecognised)
    exact List.one_le_count_iff.mp (hcount ▸ Nat.le_max_left 1 _)
  · by_cases hrecognised : Recognisable name
    · have htwice := registration_registration hexisting (hprintable hrecognised)
      simp only [hrecognised, true_or, iff_true]
      exact htwice
    · simp only [hrecognised, false_or]
      exact registered_twice_iff_of_unrecognised hexisting hrecognised body
  · have hrepeated := repeated_of_printable hexisting (hprintable hrecognised) times
    have hcount := count_names_of_printable hexisting (hprintable hrecognised)
    exact ⟨hrepeated, hcount⟩
  · have hlegible : ProjectBlock.Legible ⟨name, body⟩ :=
      { name_one_line := hline
        name_ne_nil := fun hnil => hne (String.toList_eq_nil_iff.mp hnil)
        trim_unclosed := fun hclosed => hbody (hclosed.trans (Text.trim_infix body)) }
    exact projectBlocks_repeated hexisting hlegible hvisible hunrecognised times

namespace RecognitionWitness

def shopBody : String := "\nfrom .shop import ShopServicer\n"

/-- Another project is in the file before. -/
def bankFile : String := registration "" "bank" "pass"

/-- A blank character at the end of the name is only found inside of the address. -/
theorem shop_is_recognised :
    projectName? "git@host:work/my shop.git/" = some "my shop" ∧
    "my shop" ∈ (projectBlocks (registration bankFile "my shop" shopBody)).map (·.name) ∧
    (∀ times, repeated bankFile ⟨"my shop", shopBody⟩ (times + 1) =
      registration bankFile "my shop" shopBody) ∧
    projectName? "git@host:work/shop .git" = some "shop " ∧
    (∀ times, projectBlocks (repeated bankFile ⟨"shop ", shopBody⟩ times) =
      ⟨"bank", "pass"⟩ ::
        List.replicate times ⟨"shop", "from .shop import ShopServicer"⟩) := by
  have hfound : projectBlocks bankFile = [⟨"bank", "pass"⟩] := by decide +kernel
  have hexisting : ∀ old ∈ projectBlocks bankFile, Text.allBlank old.name = false := by
    rw [hfound]
    decide +kernel
  have hbody : ¬ closing.toList <:+: shopBody.toList := by decide +kernel
  have hinner : projectName? "git@host:work/my shop.git/" = some "my shop" := by decide +kernel
  have houter : projectName? "git@host:work/shop .git" = some "shop " := by decide +kernel
  have hrecognised : Recognisable "my shop" := ⟨by decide +kernel, by decide +kernel⟩
  have hunrecognised : ¬ Recognisable "shop " := fun h => absurd h.1 (by decide +kernel)
  obtain ⟨hiff, -, hrepeated, -⟩ := project_name_recognised_iff hinner hexisting hbody
  obtain ⟨-, -, -, hadded⟩ := project_name_recognised_iff houter hexisting hbody
  refine ⟨hinner, hiff.mpr hrecognised, fun times => (hrepeated hrecognised times).1, houter,
    fun times => ?_⟩
  rw [hadded hunrecognised (by decide +kernel) (by decide +kernel) times, hfound]
  rfl

/-- A blank character in front of the name of a directory is lost, so that a second block is
registered. -/
theorem not_all_names_recognised :
    ¬ ∀ source name existing body : String, projectName? source = some name →
      (∀ old ∈ projectBlocks existing, Text.allBlank old.name = false) →
        ¬ closing.toList <:+: body.toList →
          name ∈ (projectBlocks (registration existing name body)).map (·.name) ∧
            registration (registration existing name body) name body =
              registration existing name body := by
  intro hall
  have hrecognised := (hall "/work/ shop" " shop" "" shopBody (by decide +kernel) (by decide +kernel)
    (by decide +kernel)).1
  have hlost : " shop" ∉ (projectBlocks (registration "" " shop" shopBody)).map (·.name) := by
    decide +kernel
  exact hlost hrecognised

end RecognitionWitness

end ServiceGen.Registration

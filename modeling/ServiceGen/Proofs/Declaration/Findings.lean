import Mathlib.Data.List.Dedup
import ServiceGen.Proofs.Declaration.Catalogue

/-!
What exports become among the findings.  Services, implementations and models are kept once for each
name, and every export that could not be inspected gives its own issue, so that recording the
exports of a catalogue gives findings that are complete for it, in whatever order they are recorded.
-/

namespace ServiceGen

namespace Findings

def record (fs : Findings) (x : PlacedExport) : Findings :=
  fs.add x.1 x.2.1 (Finding.ofExport x.2.2)

section Collecting

variable {A B : Type} [DecidableEq B]

/-- The list with one more, unless its key is there. -/
def addNew (key : A → B) (as : List A) (a : A) : List A :=
  if (as.map key).contains (key a) then as else as ++ [a]

theorem addNew_keys_nodup (key : A → B) {as : List A} (hnodup : (as.map key).Nodup) (a : A) :
    ((addNew key as a).map key).Nodup := by
  rw [addNew]
  split
  · exact hnodup
  · rename_i hnew
    rw [List.map_append, List.nodup_append]
    refine ⟨hnodup, by simp, ?_⟩
    intro old hold new hmem heq
    rw [List.map_singleton, List.mem_singleton] at hmem
    exact hnew (by simpa [← hmem, ← heq] using hold)

theorem mem_addNew_keys (key : A → B) (as : List A) (a : A) (k : B) :
    k ∈ (addNew key as a).map key ↔ k ∈ as.map key ∨ key a = k := by
  rw [addNew]
  split
  · rename_i hold
    constructor
    · exact Or.inl
    · rintro (hk | rfl)
      · exact hk
      · simpa using hold
  · simp [eq_comm]

/-- A part of the findings to which each export adds what `pick` makes of it, unless its key is
there: in the end it has the keys of what was picked, each once. -/
theorem collected (part : Findings → List A) (pick : PlacedExport → Option A) (key : A → B)
    (hrecord : ∀ fs x, part (fs.record x) = (pick x).elim (part fs) (addNew key (part fs)))
    (exports : List PlacedExport) (fs : Findings) (hnodup : ((part fs).map key).Nodup) :
    ((part (exports.foldl record fs)).map key).Nodup ∧
      ∀ k, k ∈ (part (exports.foldl record fs)).map key ↔
        k ∈ (part fs).map key ∨ ∃ x ∈ exports, ∃ a, pick x = some a ∧ key a = k := by
  induction exports generalizing fs with
  | nil => simpa using hnodup
  | cons x exports ih =>
      have hstep := hrecord fs x
      cases hpick : pick x with
      | none =>
          rw [hpick, Option.elim_none] at hstep
          obtain ⟨hnodup', hmem⟩ := ih (fs.record x) (by rwa [hstep])
          refine ⟨hnodup', fun k => ?_⟩
          rw [List.foldl_cons, hmem k, hstep]
          simp [hpick]
      | some a =>
          rw [hpick, Option.elim_some] at hstep
          obtain ⟨hnodup', hmem⟩ := ih (fs.record x)
            (by rw [hstep]; exact addNew_keys_nodup key hnodup a)
          refine ⟨hnodup', fun k => ?_⟩
          rw [List.foldl_cons, hmem k, hstep, mem_addNew_keys]
          simp [hpick, or_assoc]

end Collecting

/-- The class that is declared with a capability. -/
def class? (capability : Capability) (x : PlacedExport) : Option ClassDeclaration :=
  match x.2.2 with
  | .declaration d => if d.capability = capability then some d else Option.none
  | _ => Option.none

/-- The tagged model that can be read. -/
def model? (x : PlacedExport) : Option ExportedModel :=
  match x.2.2 with
  | .model tag value =>
      if tag = some Finding.modelTag then
        (Model.ofJson (.ofJson value)).toOption.map fun m => ⟨x.2.1, x.1, m⟩
      else Option.none
  | _ => Option.none

/-- What the findings become with an export, part by part. -/
theorem record_parts (fs : Findings) (x : PlacedExport) :
    (fs.record x).services =
        (class? .serviceBase x).elim fs.services (addNew ClassDeclaration.className fs.services) ∧
      (fs.record x).implementations =
        (class? .implementation x).elim fs.implementations
          (addNew ClassDeclaration.className fs.implementations) ∧
      (fs.record x).models =
        (model? x).elim fs.models (addNew (fun m => m.model.name) fs.models) ∧
      (fs.record x).issues = fs.issues ++ (Issue.ofExport? x).toList := by
  obtain ⟨module, key, e⟩ := x
  rw [record]
  cases e with
  | reference target => simp [Finding.ofExport, add, class?, model?, Issue.ofExport?]
  | declaration d =>
      cases hcapability : d.capability <;>
        simp [Finding.ofExport, add, class?, model?, Issue.ofExport?, hcapability, addClass, addNew]
  | model tag value =>
      by_cases htag : tag = some Finding.modelTag
      · cases hmodel : Model.ofJson (.ofJson value) <;>
          simp [Finding.ofExport, add, class?, model?, Issue.ofExport?, htag, hmodel, addModel,
            addNew, Except.toOption]
      · simp [Finding.ofExport, add, class?, model?, Issue.ofExport?, htag]
  | type value =>
      rw [Finding.ofExport]
      split
      · split <;> simp [add, class?, model?, Issue.ofExport?]
      · simp [add, class?, model?, Issue.ofExport?]
  | opaqueValue => simp [Finding.ofExport, add, class?, model?, Issue.ofExport?]
  | broken error => simp [Finding.ofExport, add, class?, model?, Issue.ofExport?]

theorem issues_foldl_record (exports : List PlacedExport) (fs : Findings) :
    (exports.foldl record fs).issues = fs.issues ++ exports.filterMap Issue.ofExport? := by
  induction exports generalizing fs with
  | nil => simp
  | cons x exports ih =>
      rw [List.foldl_cons, ih, (record_parts fs x).2.2.2]
      cases hissue : Issue.ofExport? x <;> simp [hissue]

theorem exists_class?_iff (c : Catalogue) (capability : Capability) (name : ClassName) :
    (∃ x ∈ c.exports, ∃ d, class? capability x = some d ∧ d.className = name) ↔
      c.DeclaresClass capability name := by
  constructor
  · rintro ⟨⟨module, key, e⟩, hx, d, hclass, hname⟩
    cases e <;> simp only [class?, Option.ite_none_right_eq_some, Option.some.injEq,
      reduceCtorEq] at hclass
    obtain ⟨hcapability, rfl⟩ := hclass
    exact ⟨module, key, _, hx, hcapability, hname⟩
  · rintro ⟨module, key, d, hx, hcapability, hname⟩
    exact ⟨(module, key, .declaration d), hx, d, if_pos hcapability, hname⟩

theorem exists_model?_iff (c : Catalogue) (name : String) :
    (∃ x ∈ c.exports, ∃ m, model? x = some m ∧ m.model.name = name) ↔ c.DeclaresModel name := by
  constructor
  · rintro ⟨⟨module, key, e⟩, hx, m, hmodel, hname⟩
    cases e with
    | model tag value =>
        simp only [model?, Option.ite_none_right_eq_some] at hmodel
        obtain ⟨rfl, hmodel⟩ := hmodel
        cases hread : Model.ofJson (.ofJson value) with
        | error _ => simp [hread, Except.toOption] at hmodel
        | ok read =>
            simp only [hread, Except.toOption, Option.map_some, Option.some.injEq] at hmodel
            subst hmodel
            exact ⟨module, key, value, read, hx, hread, hname⟩
    | _ => simp [model?] at hmodel
  · rintro ⟨module, key, value, m, hx, hread, hname⟩
    refine ⟨(module, key, .model (some Finding.modelTag) value), hx, ⟨key, module, m⟩, ?_, hname⟩
    simp [model?, hread, Except.toOption]

/-- The findings are what the catalogue declares: nothing is missing, and nothing comes twice. -/
structure CompleteFor (fs : Findings) (c : Catalogue) : Prop where
  services_nodup : (fs.services.map ClassDeclaration.className).Nodup
  services : ∀ name, name ∈ fs.services.map ClassDeclaration.className ↔
    c.DeclaresClass .serviceBase name
  implementations_nodup : (fs.implementations.map ClassDeclaration.className).Nodup
  implementations : ∀ name, name ∈ fs.implementations.map ClassDeclaration.className ↔
    c.DeclaresClass .implementation name
  models_nodup : (fs.models.map fun m => m.model.name).Nodup
  models : ∀ name, name ∈ fs.models.map (fun m => m.model.name) ↔ c.DeclaresModel name
  issues : fs.issues.Perm c.brokenExports

theorem completeFor_of_perm {c : Catalogue} {order : List PlacedExport}
    (hperm : order.Perm c.exports) : (order.foldl record none).CompleteFor c := by
  have hmem : ∀ (P : PlacedExport → Prop), (∃ x ∈ order, P x) ↔ ∃ x ∈ c.exports, P x := by
    intro P
    simp only [hperm.mem_iff]
  obtain ⟨hservices_nodup, hservices⟩ := collected services (class? .serviceBase)
    ClassDeclaration.className (fun fs x => (record_parts fs x).1) order none List.nodup_nil
  obtain ⟨himplementations_nodup, himplementations⟩ := collected implementations
    (class? .implementation) ClassDeclaration.className (fun fs x => (record_parts fs x).2.1)
    order none List.nodup_nil
  obtain ⟨hmodels_nodup, hmodels⟩ := collected models model? (fun m => m.model.name)
    (fun fs x => (record_parts fs x).2.2.1) order none List.nodup_nil
  refine ⟨hservices_nodup, fun name => ?_, himplementations_nodup, fun name => ?_, hmodels_nodup,
    fun name => ?_, ?_⟩
  · rw [hservices, hmem, exists_class?_iff]
    simp [none]
  · rw [himplementations, hmem, exists_class?_iff]
    simp [none]
  · rw [hmodels, hmem, exists_model?_iff]
    simp [none]
  · rw [issues_foldl_record]
    exact hperm.filterMap Issue.ofExport?

end Findings

namespace Catalogue

theorem DeclaresClass.perm {c c' : Catalogue} (hexports : c.exports.Perm c'.exports)
    (capability : Capability) (name : ClassName) :
    c.DeclaresClass capability name ↔ c'.DeclaresClass capability name := by
  simp only [DeclaresClass, hexports.mem_iff]

theorem DeclaresModel.perm {c c' : Catalogue} (hexports : c.exports.Perm c'.exports)
    (name : String) : c.DeclaresModel name ↔ c'.DeclaresModel name := by
  simp only [DeclaresModel, hexports.mem_iff]

end Catalogue

namespace Findings

/-- The findings have the same classes, models and issues. -/
structure Agrees (fs gs : Findings) : Prop where
  services : (fs.services.map ClassDeclaration.className).Perm
    (gs.services.map ClassDeclaration.className)
  implementations : (fs.implementations.map ClassDeclaration.className).Perm
    (gs.implementations.map ClassDeclaration.className)
  models : (fs.models.map fun m => m.model.name).Perm (gs.models.map fun m => m.model.name)
  issues : fs.issues.Perm gs.issues

/-- What is complete depends on the exports alone. -/
theorem CompleteFor.agrees {c c' : Catalogue} {fs gs : Findings} (hfs : fs.CompleteFor c)
    (hgs : gs.CompleteFor c') (hexports : c.exports.Perm c'.exports) : fs.Agrees gs where
  services := by
    rw [List.perm_ext_iff_of_nodup hfs.services_nodup hgs.services_nodup]
    intro name
    rw [hfs.services, hgs.services, Catalogue.DeclaresClass.perm hexports]
  implementations := by
    rw [List.perm_ext_iff_of_nodup hfs.implementations_nodup hgs.implementations_nodup]
    intro name
    rw [hfs.implementations, hgs.implementations, Catalogue.DeclaresClass.perm hexports]
  models := by
    rw [List.perm_ext_iff_of_nodup hfs.models_nodup hgs.models_nodup]
    intro name
    rw [hfs.models, hgs.models, Catalogue.DeclaresModel.perm hexports]
  issues := (hfs.issues.trans (hexports.filterMap Issue.ofExport?)).trans hgs.issues.symm

end Findings

end ServiceGen

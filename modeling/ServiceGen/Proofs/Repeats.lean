import Mathlib.Data.List.Basic
import Mathlib.Tactic.Tauto

/-!
Names that come again in a list.  There are none exactly when the names are distinct
(`repeats_eq_nil_iff`); without them each name stands where it first comes.
-/

namespace ServiceGen

/-- The names that were there before, each as often as that is so. -/
def repeats (names : List String) : List String :=
  (names.zipIdx.filter fun (name, index) => name ∈ names.take index).map (·.1)

/-- The same, where the names `seen` were there before all of them. -/
def repeatsAfter (seen names : List String) : List String :=
  (names.zipIdx.filter fun (name, index) => name ∈ seen ∨ name ∈ names.take index).map (·.1)

theorem repeats_eq (names : List String) : repeats names = repeatsAfter [] names := by
  simp [repeats, repeatsAfter]

@[simp] theorem repeatsAfter_nil (seen : List String) : repeatsAfter seen [] = [] := rfl

theorem repeatsAfter_cons (seen : List String) (name : String) (names : List String) :
    repeatsAfter seen (name :: names) =
      (if name ∈ seen then [name] else []) ++ repeatsAfter (name :: seen) names := by
  rw [repeatsAfter, List.zipIdx_cons', List.filter_cons, List.filter_map]
  have hlater : ((fun (other, index) => decide
      (other ∈ seen ∨ other ∈ (name :: names).take index)) ∘ Prod.map id (· + 1)) =
      fun (x : String × Nat) => decide (x.1 ∈ name :: seen ∨ x.1 ∈ names.take x.2) := by
    funext ⟨other, index⟩
    simp only [Function.comp_apply, Prod.map_apply, id_eq, List.take_succ_cons, List.mem_cons,
      decide_eq_decide]
    tauto
  rw [hlater]
  by_cases hseen : name ∈ seen <;> simp [hseen, repeatsAfter, Function.comp_def]

theorem repeatsAfter_eq_nil_iff (seen names : List String) :
    repeatsAfter seen names = [] ↔ names.Nodup ∧ ∀ name ∈ names, name ∉ seen := by
  induction names generalizing seen with
  | nil => simp
  | cons name names ih =>
      rw [repeatsAfter_cons, List.append_eq_nil_iff, ih, List.nodup_cons, List.forall_mem_cons]
      constructor
      · rintro ⟨hname, hnodup, hnames⟩
        have hfresh : name ∉ seen := by
          intro hmem
          simp [hmem] at hname
        refine ⟨⟨fun hmem => hnames name hmem List.mem_cons_self, hnodup⟩, hfresh, ?_⟩
        exact fun other hother hmem => hnames other hother (List.mem_cons_of_mem name hmem)
      · rintro ⟨⟨hname, hnodup⟩, hfresh, hnames⟩
        refine ⟨by simp [hfresh], hnodup, ?_⟩
        intro other hother hmem
        rcases List.mem_cons.mp hmem with rfl | hmem
        · exact hname hother
        · exact hnames other hother hmem

theorem repeats_eq_nil_iff (names : List String) : repeats names = [] ↔ names.Nodup := by
  rw [repeats_eq, repeatsAfter_eq_nil_iff]
  simp

theorem eraseDups_concat (names : List String) (name : String) :
    (names ++ [name]).eraseDups =
      if name ∈ names then names.eraseDups else names.eraseDups ++ [name] := by
  rw [List.eraseDups_append]
  by_cases hname : name ∈ names
  · simp [List.removeAll, hname]
  · simp [List.removeAll, hname, List.eraseDups_cons]

end ServiceGen

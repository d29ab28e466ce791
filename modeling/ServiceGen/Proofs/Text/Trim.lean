import Mathlib.Data.List.DropRight
import Mathlib.Data.List.TakeWhile
import ServiceGen.Text.Basic

/-!
A trimmed text is a piece of the text it comes from, blank characters around a text do not change
what is left of it, and trimming twice is trimming once.
-/

namespace ServiceGen.Text

theorem toList_trim (s : String) : (trim s).toList = trimBack (trimFront s.toList) :=
  String.toList_ofList

theorem trim_infix (s : String) : (trim s).toList <:+: s.toList := by
  rw [toList_trim]
  have hfront : trimFront s.toList <:+: s.toList := (List.dropWhile_suffix isBlank).isInfix
  have hback : trimBack (trimFront s.toList) <:+: trimFront s.toList :=
    (List.rdropWhile_prefix isBlank _).isInfix
  exact hback.trans hfront

theorem trimFront_append_of_blank {front : List Char} (hfront : ∀ c ∈ front, isBlank c)
    (cs : List Char) : trimFront (front ++ cs) = trimFront cs :=
  List.dropWhile_append_of_pos hfront

theorem trimBack_append_of_blank {back : List Char} (hback : ∀ c ∈ back, isBlank c)
    (cs : List Char) : trimBack (cs ++ back) = trimBack cs := by
  have hreverse : ∀ c ∈ back.reverse, isBlank c := by simpa using hback
  rw [trimBack, List.reverse_append, List.dropWhile_append_of_pos hreverse, trimBack]

theorem trim_surrounded {front back : List Char} (hfront : ∀ c ∈ front, isBlank c)
    (hback : ∀ c ∈ back, isBlank c) (s : String) :
    trim (.ofList (front ++ s.toList ++ back)) = trim s := by
  rw [← String.toList_inj, toList_trim, toList_trim, String.toList_ofList, List.append_assoc,
    trimFront_append_of_blank hfront, trimFront, List.dropWhile_append]
  split
  · rename_i hempty
    have hnone : trimFront s.toList = [] := List.isEmpty_iff.mp hempty
    rw [List.dropWhile_eq_nil_iff.mpr hback, hnone]
  · exact trimBack_append_of_blank hback _

/-- Cutting the back of a text does not uncover a blank character at its front. -/
theorem trimFront_trimBack {cs : List Char} (hcs : trimFront cs = cs) :
    trimFront (trimBack cs) = trimBack cs := by
  obtain ⟨tail, htail⟩ : trimBack cs <+: cs := List.rdropWhile_prefix isBlank cs
  cases hback : trimBack cs with
  | nil => rfl
  | cons c rest =>
      rw [hback] at htail
      rw [← htail] at hcs
      rw [trimFront, List.dropWhile_eq_self_iff] at hcs ⊢
      exact fun _ => hcs (by simp)

theorem trim_trim (s : String) : trim (trim s) = trim s := by
  have hfront : trimFront (trimFront s.toList) = trimFront s.toList :=
    List.dropWhile_idempotent isBlank _
  rw [← String.toList_inj, toList_trim, toList_trim, trimFront_trimBack hfront]
  exact List.rdropWhile_idempotent isBlank _

/-- Nothing is left of a text exactly when all of it is blank. -/
theorem trim_eq_empty_iff {s : String} : trim s = "" ↔ allBlank s = true := by
  have hfront : trimFront (trimFront s.toList) = trimFront s.toList :=
    List.dropWhile_idempotent isBlank _
  rw [← String.toList_inj, toList_trim, String.toList_empty, allBlank, List.all_eq_true]
  constructor
  · intro hnil
    rw [trimBack, List.reverse_eq_nil_iff, List.dropWhile_eq_nil_iff] at hnil
    have hblank : ∀ c ∈ trimFront s.toList, isBlank c = true := by simpa using hnil
    -- what is left at the front does not begin with a blank character
    rw [trimFront, List.dropWhile_eq_nil_iff.mpr hblank] at hfront
    exact List.dropWhile_eq_nil_iff.mp hfront.symm
  · intro hblank
    rw [trimFront, List.dropWhile_eq_nil_iff.mpr hblank]
    rfl

end ServiceGen.Text

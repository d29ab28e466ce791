import Mathlib.Data.List.Nodup
import Mathlib.Data.String.Basic
import ServiceGen.Declaration.Methods

/-!
The order of services and operations.  Sorting by names puts them into ascending order whatever the
case of the letters, and keeps the order of those whose names differ in case only; so without such
names it does not matter in which order they came.
-/

namespace ServiceGen

variable {α : Type} {name : α → String} {items : List α}

/-- A list holds some items in ascending order of their names, whatever the case of the letters, and
items whose names are equal up to that in the order in which they came. -/
structure InNameOrder (name : α → String) (items sorted : List α) : Prop where
  perm : sorted.Perm items
  ascending : sorted.Pairwise fun a b => Text.lowerCase (name a) ≤ Text.lowerCase (name b)
  stable : ∀ key, (sorted.filter fun a => Text.lowerCase (name a) == key) =
    items.filter fun a => Text.lowerCase (name a) == key

theorem decide_lowerCase_le_trans (a b c : α)
    (hab : decide (Text.lowerCase (name a) ≤ Text.lowerCase (name b)) = true)
    (hbc : decide (Text.lowerCase (name b) ≤ Text.lowerCase (name c)) = true) :
    decide (Text.lowerCase (name a) ≤ Text.lowerCase (name c)) = true := by
  rw [decide_eq_true_eq] at hab hbc ⊢
  exact le_trans hab hbc

theorem decide_lowerCase_le_total (a b : α) :
    (decide (Text.lowerCase (name a) ≤ Text.lowerCase (name b)) ||
      decide (Text.lowerCase (name b) ≤ Text.lowerCase (name a))) = true := by
  rw [Bool.or_eq_true, decide_eq_true_eq, decide_eq_true_eq]
  exact le_total ..

theorem sortByName_perm (name : α → String) (items : List α) :
    (sortByName name items).Perm items :=
  List.mergeSort_perm ..

theorem pairwise_sortByName (name : α → String) (items : List α) :
    (sortByName name items).Pairwise
      fun a b => Text.lowerCase (name a) ≤ Text.lowerCase (name b) :=
  (List.pairwise_mergeSort decide_lowerCase_le_trans decide_lowerCase_le_total items).imp
    fun h => of_decide_eq_true h

/-- The items of one name are in order already, so they stay as they are. -/
theorem filter_sortByName (name : α → String) (items : List α) (key : String) :
    ((sortByName name items).filter fun a => Text.lowerCase (name a) == key) =
      items.filter fun a => Text.lowerCase (name a) == key := by
  have hsorted : (items.filter fun a => Text.lowerCase (name a) == key).Pairwise
      fun a b => decide (Text.lowerCase (name a) ≤ Text.lowerCase (name b)) = true := by
    refine List.pairwise_of_forall_mem_list fun a ha b hb => ?_
    have hakey := beq_iff_eq.mp (List.mem_filter.mp ha).2
    have hbkey := beq_iff_eq.mp (List.mem_filter.mp hb).2
    exact decide_eq_true (by rw [hakey, hbkey])
  have hsublist := (List.sublist_mergeSort decide_lowerCase_le_trans decide_lowerCase_le_total
    hsorted List.filter_sublist).filter fun a => Text.lowerCase (name a) == key
  -- They are a sublist of those that come out, and there are as many of them.
  simp only [List.filter_filter, Bool.and_self] at hsublist
  exact (hsublist.eq_of_length ((sortByName_perm name items).filter _).length_eq.symm).symm

/-- Sorting by names does what it says. -/
theorem inNameOrder_sortByName (name : α → String) (items : List α) :
    InNameOrder name items (sortByName name items) where
  perm := sortByName_perm name items
  ascending := pairwise_sortByName name items
  stable := filter_sortByName name items

/-- When no two names are equal up to case, the order in which the items came does not matter. -/
theorem sortByName_eq_of_perm {others : List α}
    (hnames : (items.map fun a => Text.lowerCase (name a)).Nodup) (hperm : others.Perm items) :
    sortByName name others = sortByName name items := by
  refine List.Perm.eq_of_pairwise (fun a b ha hb hab hba => ?_) (pairwise_sortByName name others)
    (pairwise_sortByName name items)
    ((sortByName_perm name others).trans (hperm.trans (sortByName_perm name items).symm))
  have ha := hperm.subset ((sortByName_perm name others).subset ha)
  have hb := (sortByName_perm name items).subset hb
  exact List.inj_on_of_nodup_map hnames ha hb (le_antisymm hab hba)

end ServiceGen

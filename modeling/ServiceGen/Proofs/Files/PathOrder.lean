import Mathlib.Data.List.Basic
import ServiceGen.Proofs.Files.Path

/-!
The order of paths.  It is linear on components, so a list of paths whose components differ has one
order only, however it came.
-/

namespace ServiceGen

open Std

namespace Component

/-- Components are compared by their kinds, then by their texts; those of special components are
always the same. -/
theorem compare_eq_compareLex :
    Component.compare = compareLex (compareOn compare.rank) (compareOn text) := by
  funext a b
  cases a <;> cases b <;> rfl

instance : TransCmp Component.compare := by
  rw [compare_eq_compareLex]
  infer_instance

instance : LawfulEqCmp Component.compare where
  compare_self := ReflCmp.compare_self
  eq_of_compare {a b} h := by
    rw [compare_eq_compareLex, compareLex_eq_eq] at h
    have hrank := LawfulEqOrd.eq_of_compare h.1
    have htext := LawfulEqOrd.eq_of_compare h.2
    cases a <;> cases b <;> simp_all [compare.rank, text]

end Component

namespace Path

theorem compare_go_eq_compareLex : compare.go = List.compareLex Component.compare := by
  funext as bs
  induction as generalizing bs with
  | nil => cases bs <;> rfl
  | cons a as ih =>
      cases bs with
      | nil => rfl
      | cons b bs => rw [compare.go, ih, List.compareLex_cons_cons]

theorem compare_eq_compareOn :
    compare = fun p q => List.compareLex Component.compare p.components q.components := by
  rw [← compare_go_eq_compareLex]
  rfl

instance : TransCmp compare where
  eq_swap := by
    rw [compare_eq_compareOn]
    exact OrientedCmp.eq_swap
  isLE_trans := by
    rw [compare_eq_compareOn]
    exact TransCmp.isLE_trans

/-- Paths are in the same place of the order when they have the same components. -/
theorem compare_eq_eq_iff {p q : Path} : compare p q = .eq ↔ p.components = q.components := by
  rw [compare_eq_compareOn]
  exact LawfulEqCmp.compare_eq_iff_eq

section Sorting

variable {α : Type} {path : α → Path} {items others : List α}

def inOrder (path : α → Path) (items : List α) : List α :=
  items.mergeSort fun a b => (compare (path a) (path b)).isLE

theorem inOrder_perm (path : α → Path) (items : List α) : (inOrder path items).Perm items :=
  List.mergeSort_perm ..

theorem isLE_total (p q : Path) : ((compare p q).isLE || (compare q p).isLE) = true := by
  have hswap : compare q p = (compare p q).swap := OrientedCmp.eq_swap
  rw [hswap]
  cases compare p q <;> rfl

theorem pairwise_isLE_inOrder (path : α → Path) (items : List α) :
    (inOrder path items).Pairwise fun a b => (compare (path a) (path b)).isLE = true :=
  List.pairwise_mergeSort (fun _ _ _ => TransCmp.isLE_trans) (fun _ _ => isLE_total ..) items

/-- Items whose paths differ are in strictly ascending order. -/
theorem pairwise_inOrder (h : (items.map fun a => (path a).components).Nodup) :
    (inOrder path items).Pairwise fun a b => compare (path a) (path b) = .lt := by
  have hnodup := ((inOrder_perm path items).map fun a => (path a).components).nodup_iff.mpr h
  have hboth := (pairwise_isLE_inOrder path items).and (List.pairwise_map.mp hnodup)
  refine hboth.imp fun {a b} ⟨hle, hne⟩ => ?_
  exact (Ordering.isLE_iff_eq_lt_or_eq_eq.mp hle).resolve_right fun heq =>
    hne (compare_eq_eq_iff.mp heq)

/-- Items whose paths differ have one order. -/
theorem inOrder_eq_of_perm (h : (items.map fun a => (path a).components).Nodup)
    (hperm : others.Perm items) : inOrder path others = inOrder path items := by
  refine List.Perm.eq_of_pairwise (fun a b ha hb hab hba => ?_) (pairwise_isLE_inOrder path others)
    (pairwise_isLE_inOrder path items)
    ((inOrder_perm path others).trans (hperm.trans (inOrder_perm path items).symm))
  have ha := hperm.subset ((inOrder_perm path others).subset ha)
  have hb := (inOrder_perm path items).subset hb
  exact List.inj_on_of_nodup_map h ha hb (compare_eq_eq_iff.mp (OrientedCmp.isLE_antisymm hab hba))

end Sorting

end Path

end ServiceGen

import Mathlib.Data.List.Nodup
import ServiceGen.Json.Tree
import ServiceGen.Proofs.OrderedMap

/-!
Values in which no object has a name twice.  They stand for themselves: collapsing repeated names
changes nothing in them.
-/

namespace ServiceGen.Json

mutual

/-- No object has a name twice, at any depth. -/
def UniqueNames : Json → Prop
  | .arr items => UniqueNamesInItems items
  | .obj members => (members.map (·.1)).Nodup ∧ UniqueNamesInMembers members
  | _ => True

def UniqueNamesInItems : List Json → Prop
  | [] => True
  | item :: rest => item.UniqueNames ∧ UniqueNamesInItems rest

def UniqueNamesInMembers : List (String × Json) → Prop
  | [] => True
  | (_, value) :: rest => value.UniqueNames ∧ UniqueNamesInMembers rest

end

@[simp] theorem uniqueNames_null : UniqueNames .null := by simp [UniqueNames]

@[simp] theorem uniqueNames_bool (b : Bool) : UniqueNames (.bool b) := by simp [UniqueNames]

@[simp] theorem uniqueNames_num (n : Numeral) : UniqueNames (.num n) := by simp [UniqueNames]

@[simp] theorem uniqueNames_str (s : String) : UniqueNames (.str s) := by simp [UniqueNames]

@[simp] theorem uniqueNames_arr (items : List Json) :
    UniqueNames (.arr items) ↔ ∀ item ∈ items, item.UniqueNames := by
  rw [UniqueNames]
  induction items with
  | nil => simp [UniqueNamesInItems]
  | cons item rest ih => rw [UniqueNamesInItems, ih, List.forall_mem_cons]

@[simp] theorem uniqueNames_obj (members : List (String × Json)) :
    UniqueNames (.obj members) ↔
      (members.map (·.1)).Nodup ∧ ∀ member ∈ members, member.2.UniqueNames := by
  have hvalues : UniqueNamesInMembers members ↔ ∀ member ∈ members, member.2.UniqueNames := by
    induction members with
    | nil => simp [UniqueNamesInMembers]
    | cons member rest ih => rw [UniqueNamesInMembers, ih, List.forall_mem_cons]
  rw [UniqueNames, hvalues]

theorem map_fst_collapseMembers (members : List (String × Json)) :
    (collapseMembers members).map (·.1) = members.map (·.1) := by
  induction members with
  | nil => rfl
  | cons member rest ih => simp [collapseMembers, ih]

mutual

theorem collapse_eq : ∀ v : Json, v.UniqueNames → v.collapse = v
  | .null, _ => rfl
  | .bool _, _ => rfl
  | .num _, _ => rfl
  | .str _, _ => rfl
  | .arr items, hitems => by
      rw [uniqueNames_arr] at hitems
      rw [collapse, collapseItems_eq items hitems]
  | .obj members, hmembers => by
      rw [uniqueNames_obj] at hmembers
      rw [collapse, OrderedMap.entries_ofList (by simpa [map_fst_collapseMembers] using hmembers.1),
        collapseMembers_eq members hmembers.2]

theorem collapseItems_eq :
    ∀ items : List Json, (∀ item ∈ items, item.UniqueNames) → collapseItems items = items
  | [], _ => rfl
  | item :: rest, hitems => by
      rw [List.forall_mem_cons] at hitems
      rw [collapseItems, collapse_eq item hitems.1, collapseItems_eq rest hitems.2]

theorem collapseMembers_eq :
    ∀ members : List (String × Json), (∀ member ∈ members, member.2.UniqueNames) →
      collapseMembers members = members
  | [], _ => rfl
  | (name, value) :: rest, hmembers => by
      rw [List.forall_mem_cons] at hmembers
      rw [collapseMembers, collapse_eq value hmembers.1, collapseMembers_eq rest hmembers.2]

end

/-- What holds of an array as soon as it holds of its items, of an object as soon as it holds of the
values of its members, and of every value without parts, holds of every value. -/
theorem induction_parts {motive : Json → Prop} (null : motive .null)
    (bool : ∀ b, motive (.bool b)) (num : ∀ n, motive (.num n)) (str : ∀ s, motive (.str s))
    (arr : ∀ items, (∀ item ∈ items, motive item) → motive (.arr items))
    (obj : ∀ members, (∀ member ∈ members, motive member.2) → motive (.obj members))
    (v : Json) : motive v := by
  cases v with
  | null => exact null
  | bool b => exact bool b
  | num n => exact num n
  | str s => exact str s
  | arr items =>
      refine arr items fun item hitem => ?_
      have hlt := List.sizeOf_lt_of_mem hitem
      exact induction_parts null bool num str arr obj item
  | obj members =>
      refine obj members fun member hmember => ?_
      have hlt := List.sizeOf_lt_of_mem hmember
      have hmem : sizeOf member = 1 + sizeOf member.1 + sizeOf member.2 := rfl
      exact induction_parts null bool num str arr obj member.2
termination_by sizeOf v

/-- What holds of an object as soon as it holds of the values of its members, and of every value
that is no object, holds of every value. -/
theorem induction_members {motive : Json → Prop}
    (obj : ∀ members, (∀ member ∈ members, motive member.2) → motive (.obj members))
    (other : ∀ v, (∀ members, v ≠ .obj members) → motive v) (v : Json) : motive v := by
  induction v using induction_parts with
  | obj members ih => exact obj members ih
  | _ => exact other _ nofun

namespace Tree

theorem ofItems_eq (items : List Json) : ofItems items = items.map ofJson := by
  induction items with
  | nil => rfl
  | cons item rest ih => rw [ofItems, ih, List.map_cons]

theorem ofMembers_eq (members : List (String × Json)) :
    ofMembers members = members.map fun member => (⟨member.1, true⟩, ofJson member.2) := by
  induction members with
  | nil => rfl
  | cons member rest ih => rw [ofMembers, ih, List.map_cons]

end Tree

end ServiceGen.Json

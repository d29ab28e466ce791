import Mathlib.Data.List.Forall2

/-!
Computations that give a value or fail.  A sequence of them succeeds when each one does, and then
its values stand in the order of the items: `Fallible.mapM_eq_ok_iff`.
-/

namespace ServiceGen

section Related

variable {α β : Type*} {R : α → β → Prop} {as : List α} {bs : List β}

/-- In related lists, each item of the first has one that it is related to. -/
theorem exists_right_of_forall₂ (h : List.Forall₂ R as bs) {a : α} (ha : a ∈ as) :
    ∃ b ∈ bs, R a b := by
  induction h with
  | nil => cases ha
  | @cons _ b _ bs hfirst _ ih =>
      rcases List.mem_cons.mp ha with rfl | ha
      · exact ⟨b, List.mem_cons_self, hfirst⟩
      · obtain ⟨b', hb', hrelated⟩ := ih ha
        exact ⟨b', List.mem_cons_of_mem b hb', hrelated⟩

theorem exists_left_of_forall₂ (h : List.Forall₂ R as bs) {b : β} (hb : b ∈ bs) :
    ∃ a ∈ as, R a b :=
  exists_right_of_forall₂ (R := flip R) h.flip hb

end Related

namespace Fallible

universe u

variable {ε α β : Type} {x : Except ε α}

theorem bind_eq_ok_iff {f : α → Except ε β} {b : β} :
    x >>= f = .ok b ↔ ∃ a, x = .ok a ∧ f a = .ok b := by
  cases x <;> simp [bind, Except.bind]

theorem bind_of_eq_ok {f : α → Except ε β} {a : α} (h : x = .ok a) : (x >>= f) = f a := by
  rw [h]
  rfl

theorem eq_ok_of_toOption {a : α} (h : x.toOption = some a) : x = .ok a := by
  cases x with
  | error e => cases h
  | ok b => exact congrArg Except.ok (Option.some.inj h)

theorem exists_ok_of_isSome (h : x.toOption.isSome = true) : ∃ a, x = .ok a := by
  obtain ⟨a, ha⟩ := Option.isSome_iff_exists.mp h
  exact ⟨a, eq_ok_of_toOption ha⟩

theorem eq_ok_of_isSome (a : α) (h : x.toOption.isSome = true) : x = .ok (x.toOption.getD a) := by
  obtain ⟨b, rfl⟩ := exists_ok_of_isSome h
  rfl

/-- Each item of a sequence gives its own value. -/
theorem mapM_eq_ok_iff {P : Type u} {f : P → Except ε β} {items : List P} {bs : List β} :
    items.mapM f = .ok bs ↔ List.Forall₂ (fun item b => f item = .ok b) items bs := by
  induction items generalizing bs with
  | nil =>
      rw [List.forall₂_nil_left_iff]
      exact ⟨fun h => (Except.ok.inj h).symm, fun h => congrArg Except.ok h.symm⟩
  | cons item rest ih =>
      rw [List.mapM_cons, bind_eq_ok_iff, List.forall₂_cons_left_iff]
      simp only [bind_eq_ok_iff, ih]
      constructor
      · rintro ⟨b, hb, others, hothers, hcons⟩
        exact ⟨b, others, hb, hothers, (Except.ok.inj hcons).symm⟩
      · rintro ⟨b, others, hb, hothers, rfl⟩
        exact ⟨b, hb, others, hothers, rfl⟩

end Fallible

end ServiceGen

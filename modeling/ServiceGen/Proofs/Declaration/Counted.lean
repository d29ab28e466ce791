import Mathlib.Algebra.BigOperators.Group.List.Basic
import ServiceGen.Declaration.Methods
import ServiceGen.Proofs.Fallible

/-!
Computations that count what they lose.  What such a computation gives does not depend on what was
counted before, and what it counts is added to that: `Counted.Steady`.  So a result can be taken
apart into those of the parts, each with its own losses.
-/

namespace ServiceGen

namespace Degradations

instance : Zero Degradations := ⟨none⟩

@[simp] theorem voidFallbacks_zero : (0 : Degradations).voidFallbacks = 0 := rfl

@[simp] theorem voidElements_zero : (0 : Degradations).voidElements = 0 := rfl

@[simp] theorem voidFallbacks_add (a b : Degradations) :
    (a + b).voidFallbacks = a.voidFallbacks + b.voidFallbacks := rfl

@[simp] theorem voidElements_add (a b : Degradations) :
    (a + b).voidElements = a.voidElements + b.voidElements := rfl

theorem ext_iff {a b : Degradations} :
    a = b ↔ a.voidFallbacks = b.voidFallbacks ∧ a.voidElements = b.voidElements := by
  cases a
  cases b
  simp

/-- Losses add up, in whatever order they are counted. -/
instance : AddCommMonoid Degradations where
  add_assoc a b c := ext_iff.mpr ⟨Nat.add_assoc .., Nat.add_assoc ..⟩
  zero_add a := ext_iff.mpr ⟨Nat.zero_add _, Nat.zero_add _⟩
  add_zero a := ext_iff.mpr ⟨Nat.add_zero _, Nat.add_zero _⟩
  add_comm a b := ext_iff.mpr ⟨Nat.add_comm .., Nat.add_comm ..⟩
  nsmul := nsmulRec

/-- What was counted before can be taken off. -/
theorem add_left_cancel {d a b : Degradations} (h : d + a = d + b) : a = b := by
  rw [ext_iff] at h ⊢
  simpa using h

end Degradations

namespace Counted

variable {α β : Type}

/-- The computation gives `a` and counts the losses `e`, whatever was counted before. -/
def Gives (x : Counted α) (a : α) (e : Degradations) : Prop :=
  ∀ d, x d = .ok (a, d + e)

/-- The computation always gives the same, or always fails with the same failure. -/
def Steady (x : Counted α) : Prop :=
  (∃ a e, x.Gives a e) ∨ ∃ failure, ∀ d, x d = .error failure

/-- Whatever failure the computation ends with satisfies `P`. -/
def FailsWith (P : Failure → Prop) (x : Counted α) : Prop :=
  ∀ d failure, x d = .error failure → P failure

theorem bind_apply (x : Counted α) (f : α → Counted β) (d : Degradations) :
    (x >>= f) d = match x d with
      | .ok (a, d') => f a d'
      | .error failure => .error failure := by
  simp only [bind, StateT.bind, Except.bind]
  cases x d <;> rfl

section Gives

variable {x : Counted α} {f : α → Counted β} {a : α} {b : β} {e : Degradations}

theorem gives_pure (a : α) : (pure a : Counted α).Gives a 0 :=
  fun d => congrArg (fun e => Except.ok (a, e)) (add_zero d).symm

theorem gives_record (r : α × Degradations) : (record r).Gives r.1 r.2 :=
  fun _ => rfl

theorem Gives.bind {e' : Degradations} (hx : x.Gives a e) (hf : (f a).Gives b e') :
    (x >>= f).Gives b (e + e') := by
  intro d
  rw [bind_apply, hx d]
  exact (hf (d + e)).trans (by rw [add_assoc])

/-- A computation gives one result only. -/
theorem Gives.unique {a' : α} {e' : Degradations} (h : x.Gives a e) (h' : x.Gives a' e') :
    a = a' ∧ e = e' := by
  have heq := Except.ok.inj ((h 0).symm.trans (h' 0))
  exact ⟨congrArg Prod.fst heq, Degradations.add_left_cancel (congrArg Prod.snd heq)⟩

theorem gives_pure_iff {a' : α} : (pure a : Counted α).Gives a' e ↔ a' = a ∧ e = 0 := by
  constructor
  · exact fun h => h.unique (gives_pure a)
  · rintro ⟨rfl, rfl⟩
    exact gives_pure _

theorem not_gives_throw {failure : Failure} : ¬ (throw failure : Counted α).Gives a e := by
  intro h
  cases h 0

end Gives

section Steady

variable {x : Counted α} {f : α → Counted β} {a : α} {b : β} {e : Degradations}

theorem steady_pure (a : α) : (pure a : Counted α).Steady :=
  .inl ⟨a, 0, gives_pure a⟩

theorem steady_throw (failure : Failure) : (throw failure : Counted α).Steady :=
  .inr ⟨failure, fun _ => rfl⟩

theorem steady_record (r : α × Degradations) : (record r).Steady :=
  .inl ⟨r.1, r.2, gives_record r⟩

theorem steady_ite {c : Prop} [Decidable c] {x y : Counted α} (hx : x.Steady) (hy : y.Steady) :
    (if c then x else y).Steady := by
  split
  · exact hx
  · exact hy

theorem Steady.bind (hx : x.Steady) (hf : ∀ a, (f a).Steady) : (x >>= f).Steady := by
  rcases hx with ⟨a, e, hx⟩ | ⟨failure, hx⟩
  · rcases hf a with ⟨b, e', hb⟩ | ⟨failure, hb⟩
    · exact .inl ⟨b, e + e', hx.bind hb⟩
    · exact .inr ⟨failure, fun d => by rw [bind_apply, hx d]; exact hb (d + e)⟩
  · exact .inr ⟨failure, fun d => by rw [bind_apply, hx d]⟩

theorem Steady.map (hx : x.Steady) (g : α → β) : (g <$> x).Steady := by
  rw [map_eq_pure_bind]
  exact hx.bind fun a => steady_pure (g a)

theorem steady_mapM {f : α → Counted β} (hf : ∀ a, (f a).Steady) (as : List α) :
    (as.mapM f).Steady := by
  induction as with
  | nil => exact steady_pure []
  | cons a rest ih =>
      rw [List.mapM_cons]
      exact (hf a).bind fun b => ih.bind fun bs => steady_pure (b :: bs)

/-- What a steady computation gave once it always gives. -/
theorem Steady.eq_ok_iff (hx : x.Steady) {d d' : Degradations} :
    x d = .ok (a, d') ↔ ∃ e, x.Gives a e ∧ d' = d + e := by
  constructor
  · intro h
    rcases hx with ⟨a', e, hx⟩ | ⟨failure, hx⟩
    · rw [hx d] at h
      cases h
      exact ⟨e, hx, rfl⟩
    · rw [hx d] at h
      cases h
  · rintro ⟨e, h, rfl⟩
    exact h d

/-- What a computation gives is what its second part gives with the result of the first; the losses
of both are counted. -/
theorem gives_bind_iff (hx : x.Steady) (hf : ∀ a, (f a).Steady) :
    (x >>= f).Gives b e ↔ ∃ a e₁ e₂, x.Gives a e₁ ∧ (f a).Gives b e₂ ∧ e = e₁ + e₂ := by
  constructor
  · intro h
    rcases hx with ⟨a, e₁, hx⟩ | ⟨failure, hx⟩
    · rcases hf a with ⟨b', e₂, hb⟩ | ⟨failure, hb⟩
      · obtain ⟨rfl, rfl⟩ := h.unique (hx.bind hb)
        exact ⟨a, e₁, e₂, hx, hb, rfl⟩
      · have h0 := h 0
        rw [bind_apply, hx 0] at h0
        cases h0.symm.trans (hb _)
    · have h0 := h 0
      rw [bind_apply, hx 0] at h0
      cases h0
  · rintro ⟨a, e₁, e₂, hx, hb, rfl⟩
    exact hx.bind hb

/-- A computation for each item gives all of the results, and the losses add up. -/
theorem gives_mapM_iff {f : α → Counted β} (hf : ∀ a, (f a).Steady) {as : List α} {bs : List β}
    {e : Degradations} :
    (as.mapM f).Gives bs e ↔ ∃ rs : List (β × Degradations),
      List.Forall₂ (fun a r => (f a).Gives r.1 r.2) as rs ∧
        bs = rs.map Prod.fst ∧ e = (rs.map Prod.snd).sum := by
  induction as generalizing bs e with
  | nil =>
      constructor
      · intro h
        obtain ⟨rfl, rfl⟩ := h.unique (gives_pure [])
        exact ⟨[], .nil, rfl, rfl⟩
      · rintro ⟨_, _ | _, rfl, rfl⟩
        exact gives_pure []
  | cons a rest ih =>
      have hrest : ∀ b, (rest.mapM f >>= fun bs => pure (b :: bs)).Steady :=
        fun b => (steady_mapM hf rest).bind fun bs => steady_pure (b :: bs)
      rw [List.mapM_cons, gives_bind_iff (hf a) hrest]
      constructor
      · rintro ⟨b, e₁, e₂, hb, htail, rfl⟩
        obtain ⟨bs', e₂, e₃, hbs, hcons, rfl⟩ :=
          (gives_bind_iff (steady_mapM hf rest) fun bs => steady_pure (b :: bs)).mp htail
        obtain ⟨rs, hrs, rfl, rfl⟩ := ih.mp hbs
        obtain ⟨rfl, rfl⟩ := hcons.unique (gives_pure _)
        exact ⟨(b, e₁) :: rs, .cons hb hrs, rfl, by simp⟩
      · rintro ⟨_, _ | ⟨hb, hrs⟩, rfl, rfl⟩
        rename_i r rs
        have htail : (rest.mapM f >>= fun bs => pure (r.1 :: bs)).Gives (r.1 :: rs.map Prod.fst)
            ((rs.map Prod.snd).sum + 0) :=
          (ih.mpr ⟨rs, hrs, rfl, rfl⟩).bind (gives_pure _)
        exact ⟨r.1, r.2, _, hb, htail, by simp⟩

/-- Each item has a result of its own among the results. -/
theorem exists_mem_of_gives_mapM {f : α → Counted β} (hf : ∀ a, (f a).Steady) {as : List α}
    {bs : List β} {e : Degradations} (h : (as.mapM f).Gives bs e) {a : α} (ha : a ∈ as) :
    ∃ b ∈ bs, ∃ e', (f a).Gives b e' := by
  obtain ⟨rs, hrs, rfl, -⟩ := (gives_mapM_iff hf).mp h
  obtain ⟨r, hr, hgives⟩ := exists_right_of_forall₂ hrs ha
  exact ⟨r.1, List.mem_map_of_mem hr, r.2, hgives⟩

/-- What an item gives is kept when those that give nothing are left out. -/
theorem mem_of_gives_filterMap {f : α → Counted (Option β)} (hf : ∀ a, (f a).Steady)
    {as : List α} {bs : List β} {e e' : Degradations}
    (h : (as.mapM f >>= fun rs => pure (rs.filterMap id)).Gives bs e) {a : α} (ha : a ∈ as) {b : β}
    (hb : (f a).Gives (some b) e') : b ∈ bs := by
  obtain ⟨rs, _, _, hrs, hpure, -⟩ :=
    (gives_bind_iff (steady_mapM hf as) fun _ => steady_pure _).mp h
  obtain ⟨rfl, -⟩ := gives_pure_iff.mp hpure
  obtain ⟨r, hr, _, hgives⟩ := exists_mem_of_gives_mapM hf hrs ha
  obtain ⟨rfl, -⟩ := hgives.unique hb
  exact List.mem_filterMap.mpr ⟨some b, hr, rfl⟩

end Steady

section FailsWith

variable {P : Failure → Prop}

theorem failsWith_pure (a : α) : (pure a : Counted α).FailsWith P := by
  intro d failure h
  cases h

theorem failsWith_throw {failure : Failure} (h : P failure) :
    (throw failure : Counted α).FailsWith P := by
  intro d failure' heq
  cases heq
  exact h

theorem failsWith_record (r : α × Degradations) : (record r).FailsWith P := by
  intro d failure h
  cases h

theorem failsWith_ite {c : Prop} [Decidable c] {x y : Counted α} (hx : x.FailsWith P)
    (hy : y.FailsWith P) : (if c then x else y).FailsWith P := by
  split
  · exact hx
  · exact hy

theorem FailsWith.bind {x : Counted α} {f : α → Counted β} (hx : x.FailsWith P)
    (hf : ∀ a, (f a).FailsWith P) : (x >>= f).FailsWith P := by
  intro d failure h
  rw [bind_apply] at h
  cases hd : x d with
  | ok r =>
      rw [hd] at h
      exact hf r.1 r.2 failure h
  | error failure' =>
      rw [hd] at h
      cases h
      exact hx d _ hd

theorem FailsWith.map {x : Counted α} (hx : x.FailsWith P) (g : α → β) :
    (g <$> x).FailsWith P := by
  rw [map_eq_pure_bind]
  exact hx.bind fun a => failsWith_pure (g a)

theorem failsWith_mapM {f : α → Counted β} (hf : ∀ a, (f a).FailsWith P) (as : List α) :
    (as.mapM f).FailsWith P := by
  induction as with
  | nil => exact failsWith_pure []
  | cons a rest ih =>
      rw [List.mapM_cons]
      exact (hf a).bind fun b => ih.bind fun bs => failsWith_pure (b :: bs)

end FailsWith

end Counted

end ServiceGen

import ServiceGen.Files.Workspace

/-!
What a job gives, and what can be said of it whatever the workspace is.
-/

namespace ServiceGen

namespace Job

variable {α β : Type}

/-- What a job gives on a workspace. -/
def result (x : Job α) (w : Workspace) : Except Failure α :=
  ((ExceptT.run x).run w).1

def after (x : Job α) (w : Workspace) : Workspace :=
  ((ExceptT.run x).run w).2

theorem result_bind (x : Job α) (f : α → Job β) (w : Workspace) :
    (x >>= f).result w = match x.result w with
      | .ok a => (f a).result (x.after w)
      | .error e => .error e := by
  simp only [result, after, ExceptT.run_bind, StateT.run_bind]
  cases (ExceptT.run x).run w with
  | mk r v => cases r <;> rfl

theorem after_bind (x : Job α) (f : α → Job β) (w : Workspace) :
    (x >>= f).after w = match x.result w with
      | .ok a => (f a).after (x.after w)
      | .error _ => x.after w := by
  simp only [result, after, ExceptT.run_bind, StateT.run_bind]
  cases (ExceptT.run x).run w with
  | mk r v => cases r <;> rfl

section Bind

variable {x : Job α} {f : α → Job β} {w : Workspace} {a : α} {e : Failure}

theorem result_bind_of_ok (h : x.result w = .ok a) :
    (x >>= f).result w = (f a).result (x.after w) := by
  rw [result_bind, h]

theorem after_bind_of_ok (h : x.result w = .ok a) :
    (x >>= f).after w = (f a).after (x.after w) := by
  rw [after_bind, h]

theorem result_bind_of_error (h : x.result w = .error e) : (x >>= f).result w = .error e := by
  rw [result_bind, h]

theorem after_bind_of_error (h : x.result w = .error e) : (x >>= f).after w = x.after w := by
  rw [after_bind, h]

theorem result_bind_eq_ok {b : β} :
    (x >>= f).result w = .ok b ↔
      ∃ a, x.result w = .ok a ∧ (f a).result (x.after w) = .ok b := by
  rw [result_bind]
  cases x.result w <;> simp

/-- A job that fails has failed in its first part, or after that. -/
theorem result_bind_eq_error :
    (x >>= f).result w = .error e ↔ x.result w = .error e ∨
      ∃ a, x.result w = .ok a ∧ (f a).result (x.after w) = .error e := by
  rw [result_bind]
  cases x.result w <;> simp

end Bind

/-- Looking at the files changes nothing. -/
theorem result_tree_bind (f : FileTree → Job β) (w : Workspace) :
    (tree >>= f).result w = (f w.tree).result w := rfl

theorem after_tree_bind (f : FileTree → Job β) (w : Workspace) :
    (tree >>= f).after w = (f w.tree).after w := rfl

theorem discard_eq (x : Job α) : (discard x : Job PUnit) = x >>= fun _ => pure () := by
  rw [Functor.discard, map_const, Function.comp_apply, map_eq_pure_bind]

/-- Whatever the job gives satisfies `Q`. -/
def Gives (x : Job α) (Q : α → Prop) : Prop :=
  ∀ w a, x.result w = .ok a → Q a

theorem gives_bind {x : Job α} {f : α → Job β} {Q : β → Prop}
    (h : x.Gives fun a => (f a).Gives Q) : (x >>= f).Gives Q := by
  intro w b hb
  obtain ⟨a, ha, hb⟩ := result_bind_eq_ok.mp hb
  exact h w a ha _ b hb

theorem gives_pure {Q : α → Prop} {a : α} (h : Q a) : (pure a : Job α).Gives Q := by
  intro w b hb
  obtain rfl : a = b := Except.ok.inj hb
  exact h

theorem gives_liftM {Q : α → Prop} {x : Except Failure α} (h : ∀ a, x = .ok a → Q a) :
    (liftM x : Job α).Gives Q := by
  intro w a ha
  cases x with
  | error e => cases ha
  | ok b => exact h a ha

/-- What can be told of each result from its item can be told of all of them. -/
theorem gives_mapM_map {γ : Type} (key : β → γ) {f : α → Job β} {g : α → γ} {as : List α}
    (h : ∀ a ∈ as, (f a).Gives (key · = g a)) : (as.mapM f).Gives (·.map key = as.map g) := by
  induction as with
  | nil => exact gives_pure rfl
  | cons a rest ih =>
      rw [List.forall_mem_cons] at h
      rw [List.mapM_cons]
      refine gives_bind fun w b hb => gives_bind fun v bs hbs => gives_pure ?_
      rw [List.map_cons, h.1 w b hb, ih h.2 v bs hbs, List.map_cons]

theorem gives_mapM {f : α → Job β} {g : α → β} {as : List α}
    (h : ∀ a ∈ as, (f a).Gives (· = g a)) : (as.mapM f).Gives (· = as.map g) := by
  intro w bs hbs
  simpa using gives_mapM_map id h w bs hbs

/-- Whatever failure the job ends with satisfies `P`. -/
def FailsWith (P : Failure → Prop) (x : Job α) : Prop :=
  ∀ w e, x.result w = .error e → P e

section FailsWith

variable {P : Failure → Prop}

theorem failsWith_pure (a : α) : (pure a : Job α).FailsWith P := by
  intro w e h
  cases h

theorem failsWith_bind {x : Job α} {f : α → Job β} (hx : x.FailsWith P)
    (hf : ∀ a, (f a).FailsWith P) : (x >>= f).FailsWith P := by
  intro w e h
  rcases result_bind_eq_error.mp h with h | ⟨a, -, h⟩
  · exact hx w e h
  · exact hf a _ e h

theorem failsWith_mapM {f : α → Job β} {as : List α} (h : ∀ a, (f a).FailsWith P) :
    (as.mapM f).FailsWith P := by
  induction as with
  | nil => exact failsWith_pure []
  | cons a rest ih =>
      rw [List.mapM_cons]
      exact failsWith_bind (h a) fun b => failsWith_bind ih fun bs => failsWith_pure (b :: bs)

theorem failsWith_forM {f : α → Job Unit} {as : List α} (h : ∀ a, (f a).FailsWith P) :
    (as.forM f).FailsWith P := by
  induction as with
  | nil => exact failsWith_pure ()
  | cons a rest ih =>
      exact failsWith_bind (h a) fun _ => ih

end FailsWith

end Job

end ServiceGen

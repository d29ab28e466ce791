import ServiceGen.Proofs.Declaration.Counted
import ServiceGen.Proofs.Declaration.NameOrder

/-!
The operations of a class, taken apart.  All that is computed about methods is steady, so the
operations of a class are those of its methods one by one, sorted by name, and what the class loses
is what its documentation and its methods lose.
-/

namespace ServiceGen

open Counted

theorem Response.steady_type (r : Response) : r.type.Steady := by
  rw [Response.type]
  split
  · exact steady_pure _
  · refine Steady.bind (steady_mapM (fun entry => ?_) _) fun fields => steady_pure _
    exact (steady_record _).bind fun t => steady_pure _
  · exact steady_record _

theorem ClassDeclaration.steady_sharedArguments (c : ClassDeclaration) :
    c.sharedArguments.Steady := by
  refine Steady.bind (steady_mapM (fun entry => ?_) _) fun documented => steady_pure _
  exact (steady_record _).bind fun t => steady_pure _

namespace Method

theorem steady_attributesArgument (m : Method) (inBody : Bool) (name : String)
    (spec : Attributes) : (m.attributesArgument inBody name spec).Steady := by
  refine (steady_record _).bind fun t => ?_
  cases inBody <;> exact steady_ite ((steady_throw _).bind fun _ => steady_pure _) (steady_pure _)

theorem steady_fieldArgument? (inBody : Bool) (name : String) (f : WebField) :
    (fieldArgument? inBody name f).Steady :=
  (steady_record _).bind fun _ => steady_ite (steady_pure _) (steady_pure _)

theorem steady_describedArguments (m : Method) (inBody : Bool)
    (specs : OrderedMap ParameterSpec) : (m.describedArguments inBody specs).Steady := by
  refine Steady.bind (steady_mapM (fun entry => ?_) _) fun arguments => steady_pure _
  obtain ⟨name, spec⟩ := entry
  cases spec with
  | field f => exact steady_fieldArgument? inBody name f
  | attributes a => exact (steady_attributesArgument m inBody name a).map some

theorem steady_signatureArguments (m : Method) (reserved : List String) (ps : List Parameter) :
    ∀ taken, (m.signatureArguments reserved taken ps).Steady := by
  induction ps with
  | nil => exact steady_pure
  | cons p rest ih =>
      intro taken
      exact (steady_record _).bind fun t => steady_ite (ih taken) (ih _)

theorem steady_documentedArguments (m : Method) (doc : MemberDoc) (shared : List Argument) :
    (m.documentedArguments doc shared).Steady := by
  rw [documentedArguments]
  split
  · exact steady_throw _
  · refine (steady_describedArguments m false doc.params).bind fun params => ?_
    refine (steady_mapM (steady_describedArguments m true) doc.expect).bind fun expected => ?_
    exact steady_signatureArguments m _ _ _

theorem steady_withResponses (responses : List (String × Response)) :
    ∀ o : Operation, (withResponses o responses).Steady := by
  induction responses with
  | nil => exact steady_pure
  | cons entry rest ih =>
      intro o
      rw [withResponses]
      split
      · exact ih o
      · exact (entry.2.steady_type).bind fun t => ih _

theorem steady_operation (m : Method) (shared : List Argument) : (m.operation shared).Steady := by
  rw [operation]
  split
  · refine (steady_documentedArguments m _ shared).bind fun own => ?_
    exact steady_withResponses _ _
  · exact steady_pure _

section Gives

variable {m : Method} {doc : MemberDoc} {shared : List Argument} {e : Degradations}

/-- The arguments of a documented method: those of its documentation, of what it expects and of its
signature, one after the other. -/
theorem documentedArguments_gives_iff {own : List Argument} :
    (m.documentedArguments doc shared).Gives own e ↔ m.missingHints? = none ∧
      ∃ params e₁ expected e₂, (m.describedArguments false doc.params).Gives params e₁ ∧
        List.Forall₂ (fun specs r => (m.describedArguments true specs).Gives r.1 r.2)
          doc.expect expected ∧
        (m.signatureArguments (shared.map (·.name)) (params ++ (expected.map Prod.fst).flatten)
          m.member.signature.positional).Gives own e₂ ∧
        e = e₁ + ((expected.map Prod.snd).sum + e₂) := by
  have hsignature : ∀ taken, (m.signatureArguments (shared.map (·.name)) taken
      m.member.signature.positional).Steady := steady_signatureArguments m _ _
  have hexpected := steady_mapM (steady_describedArguments m true) doc.expect
  rw [documentedArguments]
  cases m.missingHints? with
  | some missing =>
      constructor
      · intro h
        cases h 0
      · rintro ⟨h, -⟩
        cases h
  | none =>
      dsimp only
      rw [gives_bind_iff (steady_describedArguments m false doc.params)
        fun params => hexpected.bind fun expected => hsignature _]
      simp only [gives_bind_iff hexpected fun expected => hsignature _,
        gives_mapM_iff (steady_describedArguments m true)]
      constructor
      · rintro ⟨params, e₁, _, hparams, ⟨_, _, e₃, ⟨expected, hrs, rfl, rfl⟩, hown, rfl⟩, rfl⟩
        exact ⟨trivial, params, e₁, expected, e₃, hparams, hrs, hown, rfl⟩
      · rintro ⟨_, params, e₁, expected, e₃, hparams, hrs, hown, rfl⟩
        exact ⟨params, e₁, _, hparams, ⟨_, _, e₃, ⟨expected, hrs, rfl, rfl⟩, hown, rfl⟩, rfl⟩

/-- The answers of an operation touch neither its name nor its arguments. -/
theorem withResponses_keeps {responses : List (String × Response)} :
    ∀ {o o' : Operation} {e : Degradations}, (withResponses o responses).Gives o' e →
      o'.name = o.name ∧ o'.arguments = o.arguments := by
  induction responses with
  | nil =>
      intro o o' e h
      obtain ⟨rfl, -⟩ := h.unique (gives_pure o)
      exact ⟨rfl, rfl⟩
  | cons entry rest ih =>
      intro o o' e h
      rw [withResponses] at h
      split at h
      · exact ih h
      · obtain ⟨t, e₁, e₂, -, hrest, -⟩ :=
          (gives_bind_iff entry.2.steady_type fun t => steady_withResponses rest _).mp h
        have hkept := ih hrest
        exact hkept

/-- An operation has the name of its method. -/
theorem name_of_operation_gives {o : Operation} (h : (m.operation shared).Gives o e) :
    o.name = m.name := by
  rw [operation] at h
  split at h
  · rename_i doc _
    obtain ⟨own, e₁, e₂, -, hresponses, -⟩ := (gives_bind_iff
      (steady_documentedArguments m doc shared) fun own => steady_withResponses _ _).mp h
    exact (withResponses_keeps hresponses).1
  · obtain ⟨rfl, -⟩ := h.unique (gives_pure _)
    rfl

/-- The operation of a documented method takes the arguments of its class and its own ones, and
loses no less than they do. -/
theorem documented_operation_gives (hdoc : m.member.memberDoc = some doc) {o : Operation}
    (h : (m.operation shared).Gives o e) :
    ∃ own e₁ e₂, (m.documentedArguments doc shared).Gives own e₁ ∧
      o.arguments = shared ++ own ∧ e = e₁ + e₂ := by
  rw [operation, hdoc] at h
  obtain ⟨own, e₁, e₂, hown, hresponses, rfl⟩ := (gives_bind_iff
    (steady_documentedArguments m doc shared) fun own => steady_withResponses _ _).mp h
  exact ⟨own, e₁, e₂, hown, (withResponses_keeps hresponses).2, rfl⟩

end Gives

end Method

namespace ClassDeclaration

theorem steady_operations (c : ClassDeclaration) : c.operations.Steady :=
  c.steady_sharedArguments.bind fun shared =>
    (steady_mapM (Method.steady_operation · shared) c.methods).bind fun _ => steady_pure _

/-- The operations of a class are those of its methods in the order of their names. -/
theorem operations_gives_iff {c : ClassDeclaration} {operations : List Operation}
    {e : Degradations} :
    c.operations.Gives operations e ↔ ∃ shared e₀ declared, c.sharedArguments.Gives shared e₀ ∧
      List.Forall₂ (fun m r => (m.operation shared).Gives r.1 r.2) c.methods declared ∧
      operations = sortByName Operation.name (declared.map Prod.fst) ∧
      e = e₀ + (declared.map Prod.snd).sum := by
  rw [ClassDeclaration.operations, gives_bind_iff c.steady_sharedArguments fun shared =>
    (steady_mapM (Method.steady_operation · shared) c.methods).bind fun _ => steady_pure _]
  constructor
  · rintro ⟨shared, e₀, _, hshared, h, rfl⟩
    obtain ⟨_, e₁, e₂, hmethods, hpure, rfl⟩ := (gives_bind_iff
      (steady_mapM (Method.steady_operation · shared) c.methods) fun _ => steady_pure _).mp h
    obtain ⟨declared, hdeclared, rfl, rfl⟩ :=
      (gives_mapM_iff (Method.steady_operation · shared)).mp hmethods
    obtain ⟨rfl, rfl⟩ := hpure.unique (gives_pure _)
    exact ⟨shared, e₀, declared, hshared, hdeclared, rfl, by rw [add_zero]⟩
  · rintro ⟨shared, e₀, declared, hshared, hdeclared, rfl, rfl⟩
    have hmethods := (gives_mapM_iff (Method.steady_operation · shared)).mpr
      ⟨declared, hdeclared, rfl, rfl⟩
    have hsorted := hmethods.bind (f := fun operations =>
      pure (sortByName Operation.name operations)) (gives_pure _)
    exact ⟨shared, e₀, _, hshared, hsorted, by rw [add_zero]⟩

end ClassDeclaration

end ServiceGen

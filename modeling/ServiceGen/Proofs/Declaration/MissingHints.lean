import ServiceGen.Proofs.Declaration.Methods

/-!
When a documented method is refused because of its signature.  What is compared is the number of
positional parameters and the number of hints, and the hint of a receiver is among the latter: with
it, one positional parameter may lack a hint unnoticed.  The main statement is
`Method.missing_hints_refused_iff`.
-/

namespace ServiceGen

open Counted

namespace Signature

/-- The receiver in front of the positional parameters. -/
def receiver? (s : Signature) : Option Parameter :=
  match s.parameters with
  | p :: _ => if p.name == "self" || p.name == "cls" then some p else none
  | [] => none

/-- There is a receiver, and it has a hint. -/
def HintedReceiver (s : Signature) : Prop :=
  ∃ p, s.receiver? = some p ∧ p.hint ≠ none

/-- The positional parameters without a hint. -/
def unhinted (s : Signature) : List Parameter :=
  s.positional.filter (·.hint.isNone)

theorem parameters_eq (s : Signature) : s.parameters = s.receiver?.toList ++ s.positional := by
  obtain ⟨parameters, defaults⟩ := s
  cases parameters with
  | nil => rfl
  | cons p rest =>
      simp only [receiver?, positional]
      split <;> rfl

/-- Hints and missing hints make up the positional parameters and the receiver's hint. -/
theorem annotatedCount_add_unhinted (s : Signature) :
    s.annotatedCount + s.unhinted.length =
      (s.receiver?.toList.filter (·.hint.isSome)).length + s.positional.length := by
  have hsplit := List.length_eq_length_filter_add (l := s.positional) (·.hint.isSome)
  simp only [Option.not_isSome] at hsplit
  rw [annotatedCount, parameters_eq, List.filter_append, List.length_append, unhinted]
  omega

/-- The hint of the receiver is one more hint, or none. -/
theorem length_hinted_receiver (s : Signature) :
    s.HintedReceiver ∧ (s.receiver?.toList.filter (·.hint.isSome)).length = 1 ∨
      ¬ s.HintedReceiver ∧ (s.receiver?.toList.filter (·.hint.isSome)).length = 0 := by
  rw [HintedReceiver]
  cases s.receiver? with
  | none => simp
  | some p =>
      obtain ⟨name, hint⟩ := p
      cases hint <;> simp

theorem unhinted_ne_nil_iff {s : Signature} :
    s.unhinted ≠ [] ↔ ∃ p ∈ s.positional, p.hint = none := by
  simp [unhinted]

end Signature

def Failure.IsMissingHints (e : Failure) : Prop :=
  ∃ x, e = .missingHints x

namespace Method

/-- What is said about a method that lacks hints. -/
theorem missingHints?_eq_some {m : Method} {x : MissingHints} (h : m.missingHints? = some x) :
    x.className = m.owner.name ∧ x.method = m.name ∧
      x.missing = m.member.signature.unhinted.map (·.name) ∧
      x.parameters = m.member.signature.positional.map (·.name) := by
  rw [missingHints?] at h
  split at h
  · obtain rfl := Option.some.inj h
    exact ⟨rfl, rfl, rfl, rfl⟩
  · cases h

/-- A method is refused when its positional parameters lack more hints than its receiver has. -/
theorem missingHints?_isSome_iff (m : Method) :
    m.missingHints?.isSome = true ↔ (∃ p ∈ m.member.signature.positional, p.hint = none) ∧
      ¬ (m.member.signature.HintedReceiver ∧ m.member.signature.unhinted.length = 1) := by
  -- The hints that are counted are those of the positional parameters and that of the receiver.
  have hcount := m.member.signature.annotatedCount_add_unhinted
  rw [← Signature.unhinted_ne_nil_iff, ← List.length_pos_iff, missingHints?]
  rcases m.member.signature.length_hinted_receiver with ⟨hreceiver, hone⟩ | ⟨hreceiver, hzero⟩
  · split
    · simp only [Option.isSome_some, hreceiver, true_and, true_iff]
      omega
    · simp only [Option.isSome_none, hreceiver, true_and, Bool.false_eq_true, false_iff]
      omega
  · split
    · simp only [Option.isSome_some, hreceiver, false_and, not_false_eq_true, and_true, true_iff]
      omega
    · simp only [Option.isSome_none, hreceiver, false_and, not_false_eq_true, and_true,
        Bool.false_eq_true, false_iff]
      omega

theorem failsWith_describedArguments (m : Method) (inBody : Bool)
    (specs : OrderedMap ParameterSpec) :
    (m.describedArguments inBody specs).FailsWith fun e => ¬ e.IsMissingHints := by
  refine (failsWith_mapM (fun entry => ?_) _).bind fun arguments => failsWith_pure _
  obtain ⟨name, spec⟩ := entry
  cases spec with
  | field f =>
      exact (failsWith_record _).bind fun t => failsWith_ite (failsWith_pure _) (failsWith_pure _)
  | attributes a =>
      refine FailsWith.map ((failsWith_record _).bind fun t => ?_) some
      have huntyped : ¬ (Failure.untypedParameter m.owner.name m.name name).IsMissingHints := by
        rintro ⟨x, h⟩
        cases h
      cases inBody <;> exact failsWith_ite ((failsWith_throw huntyped).bind fun _ =>
        failsWith_pure _) (failsWith_pure _)

theorem failsWith_signatureArguments (m : Method) (reserved : List String)
    (ps : List Parameter) : ∀ known, (m.signatureArguments reserved known ps).FailsWith
      fun e => ¬ e.IsMissingHints := by
  induction ps with
  | nil => exact failsWith_pure
  | cons p rest ih =>
      intro known
      exact (failsWith_record _).bind fun t => failsWith_ite (ih known) (ih _)

/-- Missing hints are found before anything else is done, and never later. -/
theorem documentedArguments_eq_missingHints_iff (m : Method) (doc : MemberDoc)
    (shared : List Argument) (d : Degradations) (x : MissingHints) :
    m.documentedArguments doc shared d = .error (.missingHints x) ↔ m.missingHints? = some x := by
  rw [documentedArguments]
  cases m.missingHints? with
  | some missing =>
      constructor
      · intro h
        cases h
        rfl
      · intro h
        cases h
        rfl
  | none =>
      refine iff_of_false (fun h => ?_) (by simp)
      exact ((failsWith_describedArguments m false doc.params).bind fun params =>
        (failsWith_mapM (failsWith_describedArguments m true) doc.expect).bind fun expected =>
          failsWith_signatureArguments m _ _ _) d _ h ⟨x, rfl⟩

/-- A documented method is refused for a positional parameter without a hint, and the failure says
which ones lack it; except in one case: the receiver has a hint and just one positional parameter
has none. -/
theorem missing_hints_refused_iff (m : Method) (doc : MemberDoc) (shared : List Argument)
    (d : Degradations) :
    (((∃ x, m.documentedArguments doc shared d = .error (.missingHints x)) ↔
        ∃ p ∈ m.member.signature.positional, p.hint = none) ↔
      ¬ (m.member.signature.HintedReceiver ∧ m.member.signature.unhinted.length = 1)) ∧
    ∀ x, m.documentedArguments doc shared d = .error (.missingHints x) →
      x.className = m.owner.name ∧ x.method = m.name ∧
        x.missing = m.member.signature.unhinted.map (·.name) ∧
        x.parameters = m.member.signature.positional.map (·.name) := by
  simp only [documentedArguments_eq_missingHints_iff, ← Option.isSome_iff_exists,
    missingHints?_isSome_iff]
  refine ⟨⟨fun hiff hexcepted => ?_, fun hexcepted => ?_⟩, fun x => missingHints?_eq_some⟩
  · have hunhinted : ∃ p ∈ m.member.signature.positional, p.hint = none := by
      rw [← Signature.unhinted_ne_nil_iff, ← List.length_pos_iff, hexcepted.2]
      exact Nat.one_pos
    exact (hiff.mpr hunhinted).2 hexcepted
  · exact ⟨And.left, fun hunhinted => ⟨hunhinted, hexcepted⟩⟩

end Method

namespace MissingHintsWitness

/-- The documentation of a method that says nothing. -/
def silent : MemberDoc where
  params := .empty
  expect := []
  responses := .empty

/-- A documented method with a receiver, perhaps with a hint, and a parameter without one. -/
def member (receiver : Option TypeHint) : Member where
  kind := .function
  doc := none
  plainArguments := none
  plainResult := none
  memberDoc := some silent
  signature := ⟨[⟨"self", receiver⟩, ⟨"name", none⟩], []⟩

def demo (receiver : Option TypeHint) : ClassDeclaration where
  name := "Demo"
  module := "app.service"
  capability := .serviceBase
  implementationName := none
  classDoc := none
  webNamespace := none
  members := ⟨[("hello", member receiver)]⟩

def hello (receiver : Option TypeHint) : Method :=
  ⟨demo receiver, "hello", member receiver⟩

theorem name_mem_positional (receiver : Option TypeHint) :
    ⟨"name", none⟩ ∈ (hello receiver).member.signature.positional :=
  List.mem_singleton_self _

/-- Without a hint for the receiver the method is refused. -/
theorem hello_refused :
    ¬ ((hello none).member.signature.HintedReceiver ∧
        (hello none).member.signature.unhinted.length = 1) ∧
      ∃ x, (hello none).documentedArguments silent [] .none = .error (.missingHints x) ∧
        x.missing = ["name"] := by
  have hreceiver : ¬ (hello none).member.signature.HintedReceiver := by
    rintro ⟨p, hp, hhint⟩
    obtain rfl := Option.some.inj hp
    exact hhint rfl
  have h := Method.missing_hints_refused_iff (hello none) silent [] .none
  have hexcepted := fun hboth : _ ∧ (hello none).member.signature.unhinted.length = 1 =>
    hreceiver hboth.1
  obtain ⟨x, hx⟩ := (h.1.mpr hexcepted).mpr ⟨_, name_mem_positional none, rfl⟩
  exact ⟨hexcepted, x, hx, (h.2 x hx).2.2.1⟩

/-- With a hint for the receiver a parameter without one goes through. -/
theorem not_all_missing_hints_refused :
    ¬ ∀ (c : ClassDeclaration) (m : Method) (doc : MemberDoc) (shared : List Argument)
        (d : Degradations), m ∈ c.methods → m.member.memberDoc = some doc →
      ((∃ x, m.documentedArguments doc shared d = .error (.missingHints x)) ↔
        ∃ p ∈ m.member.signature.positional, p.hint = none) := by
  intro hall
  have hmethods : (demo (some (.native .int))).methods = [hello (some (.native .int))] := rfl
  have hmem : hello (some (.native .int)) ∈ (demo (some (.native .int))).methods :=
    hmethods ▸ List.mem_singleton_self _
  obtain ⟨x, hx⟩ := (hall _ _ silent [] .none hmem rfl).mpr ⟨_, name_mem_positional _, rfl⟩
  cases hx

end MissingHintsWitness

end ServiceGen

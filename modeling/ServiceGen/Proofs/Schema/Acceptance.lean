import Mathlib.Tactic.Tauto
import ServiceGen.Proofs.Problems

/-!
What the check of services accepts: no operation has two arguments of one name, and every type
is well formed.  The main statement is `Service.isOk_checkAll_iff`.
-/

namespace ServiceGen

namespace DataType

/-- A type whose lists hold neither void nor lists, whose fields are named by identifiers, and
whose enumerations have members over a scalar. -/
inductive WellFormed : DataType → Prop
  | void {t : DataType} (hkind : t.kind = .void) : WellFormed t
  | scalar {t : DataType} {s : Scalar} (hkind : t.kind = .scalar s) : WellFormed t
  | list {t element : DataType} (hkind : t.kind = .list element)
      (hvoid : element.isVoid = false) (hlist : element.isList = false)
      (helement : WellFormed element) : WellFormed t
  | dict {t : DataType} {fields : Fields} (hkind : t.kind = .dict fields)
      (hnames : ∀ field ∈ fields.entries, Naming.isIdentifier field.1 = true)
      (htypes : ∀ field ∈ fields.entries, WellFormed field.2) : WellFormed t
  | enum {t underlying : DataType} {name : Option String} {members : Fields}
      (hkind : t.kind = .enum name underlying members)
      (hscalar : underlying.isScalar = true) (hmembers : members.isEmpty = false) : WellFormed t

theorem wellFormed_list_iff {t element : DataType} (hkind : t.kind = .list element) :
    t.WellFormed ↔ element.isVoid = false ∧ element.isList = false ∧ element.WellFormed := by
  constructor
  · intro h
    cases h with
    | list hkind' hvoid hlist helement =>
        obtain rfl := Kind.list.inj (hkind.symm.trans hkind')
        exact ⟨hvoid, hlist, helement⟩
    | _ => simp_all
  · rintro ⟨hvoid, hlist, helement⟩
    exact .list hkind hvoid hlist helement

theorem wellFormed_dict_iff {t : DataType} {fields : Fields} (hkind : t.kind = .dict fields) :
    t.WellFormed ↔ (∀ field ∈ fields.entries, Naming.isIdentifier field.1 = true) ∧
      ∀ field ∈ fields.entries, field.2.WellFormed := by
  constructor
  · intro h
    cases h with
    | dict hkind' hnames htypes =>
        obtain rfl := Kind.dict.inj (hkind.symm.trans hkind')
        exact ⟨hnames, htypes⟩
    | _ => simp_all
  · rintro ⟨hnames, htypes⟩
    exact .dict hkind hnames htypes

theorem wellFormed_enum_iff {t underlying : DataType} {name : Option String} {members : Fields}
    (hkind : t.kind = .enum name underlying members) :
    t.WellFormed ↔ underlying.isScalar = true ∧ members.isEmpty = false := by
  constructor
  · intro h
    cases h with
    | enum hkind' hscalar hmembers =>
        obtain ⟨-, rfl, rfl⟩ := Kind.enum.inj (hkind.symm.trans hkind')
        exact ⟨hscalar, hmembers⟩
    | _ => simp_all
  · rintro ⟨hscalar, hmembers⟩
    exact .enum hkind hscalar hmembers

/-- The notes of a type do not matter. -/
theorem WellFormed.of_kind_eq {t u : DataType} (hkind : u.kind = t.kind) (h : t.WellFormed) :
    u.WellFormed := by
  cases h with
  | void h => exact .void (hkind.trans h)
  | scalar h => exact .scalar (hkind.trans h)
  | list h hvoid hlist helement => exact .list (hkind.trans h) hvoid hlist helement
  | dict h hnames htypes => exact .dict (hkind.trans h) hnames htypes
  | enum h hscalar hmembers => exact .enum (hkind.trans h) hscalar hmembers

open Problems

mutual

/-- The check of a type finds nothing exactly in a well-formed one. -/
theorem isEmpty_check_iff (route : List String) (p : Problems) :
    ∀ t : DataType, (t.check route p).isEmpty = true ↔ p.isEmpty = true ∧ t.WellFormed
  | { kind := .void, .. } =>
      ⟨fun h => ⟨by simpa only [check] using h, .void rfl⟩,
        fun h => by simpa only [check] using h.1⟩
  | { kind := .scalar s, .. } =>
      ⟨fun h => ⟨by simpa only [check] using h, .scalar rfl⟩,
        fun h => by simpa only [check] using h.1⟩
  | { kind := .list element, .. } => by
      rw [wellFormed_list_iff rfl, check, isEmpty_check_iff, isEmpty_report_if, isEmpty_report_if]
      simp [and_assoc]
  | { kind := .dict ⟨fields⟩, .. } => by
      rw [wellFormed_dict_iff rfl, check, isEmpty_checkFields_iff]
  | { kind := .enum _ underlying members, .. } => by
      rw [wellFormed_enum_iff rfl, check, isEmpty_report_if, isEmpty_report_unless]
      simp [and_assoc]

theorem isEmpty_checkFields_iff (route : List String) (p : Problems) :
    ∀ fields : List (String × DataType),
      (checkFields route p fields).isEmpty = true ↔ p.isEmpty = true ∧
        (∀ field ∈ fields, Naming.isIdentifier field.1 = true) ∧
          ∀ field ∈ fields, field.2.WellFormed
  | [] => by simp [checkFields]
  | (name, t) :: rest => by
      rw [checkFields, isEmpty_checkFields_iff, isEmpty_check_iff, isEmpty_report_unless]
      simp only [Bool.and_eq_true, List.forall_mem_cons]
      tauto

end

end DataType

namespace Operation

/-- An operation whose arguments have names of their own and whose types are well formed. -/
structure WellFormed (o : Operation) : Prop where
  names_nodup : (o.arguments.map Argument.name).Nodup
  arguments : ∀ a ∈ o.arguments, a.type.WellFormed
  result : o.result.WellFormed

open Problems

theorem isEmpty_checkArguments_iff (arguments : List Argument) :
    ∀ (p : Problems) (seen : List String),
      (checkArguments p seen arguments).isEmpty = true ↔ p.isEmpty = true ∧
        ((arguments.map Argument.name).Nodup ∧ ∀ a ∈ arguments, a.name ∉ seen) ∧
          ∀ a ∈ arguments, a.type.WellFormed := by
  induction arguments with
  | nil => simp [checkArguments]
  | cons a rest ih =>
      intro p seen
      have hadd : (if a.name ∈ seen then p.add ("duplicate argument '" ++ a.name ++ "'")
          else p).isEmpty = true ↔ p.isEmpty = true ∧ a.name ∉ seen := by
        by_cases hseen : a.name ∈ seen <;> simp [hseen]
      rw [checkArguments, ih, DataType.isEmpty_check_iff, hadd]
      simp only [List.map_cons, List.nodup_cons, List.mem_map, List.mem_cons, not_or,
        forall_eq_or_imp]
      constructor
      · rintro ⟨⟨⟨hp, ha⟩, htype⟩, ⟨hnodup, hseen⟩, htypes⟩
        exact ⟨hp, ⟨⟨fun ⟨b, hb, heq⟩ => (hseen b hb).1 heq, hnodup⟩, ha,
          fun b hb => (hseen b hb).2⟩, htype, htypes⟩
      · rintro ⟨hp, ⟨⟨hfresh, hnodup⟩, ha, hseen⟩, htype, htypes⟩
        exact ⟨⟨⟨hp, ha⟩, htype⟩,
          ⟨hnodup, fun b hb => ⟨fun heq => hfresh ⟨b, hb, heq⟩, hseen b hb⟩⟩, htypes⟩

/-- The check of an operation finds nothing exactly in a well-formed one. -/
theorem isEmpty_check_iff (o : Operation) : o.check.isEmpty = true ↔ o.WellFormed := by
  rw [check, DataType.isEmpty_check_iff, isEmpty_checkArguments_iff]
  constructor
  · rintro ⟨⟨-, ⟨hnodup, -⟩, harguments⟩, hresult⟩
    exact ⟨hnodup, harguments, hresult⟩
  · intro h
    exact ⟨⟨isEmpty_empty, ⟨h.names_nodup, by simp⟩, h.arguments⟩, h.result⟩

end Operation

namespace Service

/-- A service with well-formed operations. -/
def WellFormed (s : Service) : Prop :=
  ∀ o ∈ s.operations, o.WellFormed

open Problems

theorem isEmpty_foldl_attach {α : Type} (route : α → String) (problems : α → Problems)
    (items : List α) :
    ∀ p : Problems,
      (items.foldl (fun p item => p.attach (route item) (problems item)) p).isEmpty = true ↔
        p.isEmpty = true ∧ ∀ item ∈ items, (problems item).isEmpty = true := by
  induction items with
  | nil => simp
  | cons item rest ih =>
      intro p
      rw [List.foldl_cons, ih, isEmpty_attach, Bool.and_eq_true, List.forall_mem_cons, and_assoc]

theorem isEmpty_check_iff (s : Service) : s.check.isEmpty = true ↔ s.WellFormed := by
  rw [check, isEmpty_foldl_attach]
  simp only [isEmpty_empty, true_and, Operation.isEmpty_check_iff, WellFormed]

/-- Services are accepted exactly when all of them are well formed. -/
theorem isOk_checkAll_iff (services : List Service) :
    (checkAll services).isOk = true ↔ ∀ s ∈ services, s.WellFormed := by
  rw [isOk, checkAll, isEmpty_foldl_attach]
  simp only [isEmpty_empty, true_and, isEmpty_check_iff]

end Service

end ServiceGen

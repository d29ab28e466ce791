import ServiceGen.Proofs.LocatedProblems
import ServiceGen.Proofs.Repeats
import ServiceGen.Schema.Check

/-!
What the check of services reports.  The violations of a service are listed here without the check:
arguments whose name was there before, and what is wrong with each type that is reached through
elements and fields.  The check collects exactly these, each once and each at its place; the main
statement is `Service.checkAll_reports_violations`.
-/

namespace ServiceGen

namespace Problems

theorem located_report_if (p : Problems) {route : List String} (hroute : route ≠ [])
    (wrong : Bool) (message : String) :
    (if wrong then p.report route message else p).located.Perm
      (p.located ++ if wrong then [(route, message)] else []) := by
  cases wrong with
  | false => simp
  | true => exact located_report_perm p hroute message

theorem located_report_unless (p : Problems) {route : List String} (hroute : route ≠ [])
    (right : Bool) (message : String) :
    (if right then p else p.report route message).located.Perm
      (p.located ++ if right then [] else [(route, message)]) := by
  cases right with
  | true => simp
  | false => exact located_report_perm p hroute message

end Problems

namespace DataType

mutual

/-- A type and those inside of it, through the elements of lists and the fields of dicts, each with
the names that lead to it. -/
def nodes : DataType → List (List String × DataType)
  | t@{ kind := .list element, .. } =>
      ([], t) :: (nodes element).map fun node => ("elem" :: node.1, node.2)
  | t@{ kind := .dict ⟨fields⟩, .. } => ([], t) :: nodesOf fields
  | t => [([], t)]

/-- The types inside of named ones, and these themselves. -/
def nodesOf : List (String × DataType) → List (List String × DataType)
  | [] => []
  | (name, t) :: rest => (nodes t).map (fun node => (name :: node.1, node.2)) ++ nodesOf rest

end

/-- What is wrong with a type itself, whatever is inside of it. -/
def faults (t : DataType) : List String :=
  match t.kind with
  | .list element =>
      (if element.isVoid then ["list element cannot be void"] else [])
        ++ if element.isList then ["list element cannot be a list"] else []
  | .dict fields =>
      (fields.keys.filter (!Naming.isIdentifier ·)).map fun name =>
        "field name '" ++ name ++ "' is not an identifier"
  | .enum _ underlying members =>
      (if underlying.isScalar then [] else ["enum underlying type must be a scalar"])
        ++ if members.isEmpty then ["enum has no members"] else []
  | _ => []

/-- Nothing is wrong with a type itself: an element of a list is neither void nor a list, the names
of fields are identifiers, and an enumeration has members over a scalar. -/
structure Sound (t : DataType) : Prop where
  element : ∀ element, t.kind = .list element → element.isVoid = false ∧ element.isList = false
  names : ∀ fields, t.kind = .dict fields → ∀ name ∈ fields.keys, Naming.isIdentifier name = true
  members : ∀ name underlying members, t.kind = .enum name underlying members →
    underlying.isScalar = true ∧ members.isEmpty = false

theorem faults_eq_nil_iff (t : DataType) : t.faults = [] ↔ t.Sound := by
  rw [faults]
  constructor
  · intro h
    refine ⟨?_, ?_, ?_⟩
    · intro element hkind
      simpa [hkind] using h
    · intro fields hkind
      simpa [hkind] using h
    · intro name underlying members hkind
      simpa [hkind] using h
  · intro h
    cases hkind : t.kind with
    | void => rfl
    | scalar s => rfl
    | list element =>
        obtain ⟨hvoid, hlist⟩ := h.element element hkind
        simp [hvoid, hlist]
    | dict fields =>
        have hnames := h.names fields hkind
        simpa using hnames
    | enum name underlying members =>
        obtain ⟨hscalar, hmembers⟩ := h.members name underlying members hkind
        simp [hscalar, hmembers]

/-- The violations in a type that stands at `route`, each with its place. -/
def violations (route : List String) (nodes : List (List String × DataType)) :
    List (List String × String) :=
  nodes.flatMap fun node => node.2.faults.map (route ++ node.1, ·)

theorem violations_append (route : List String) (nodes others : List (List String × DataType)) :
    violations route (nodes ++ others) = violations route nodes ++ violations route others :=
  List.flatMap_append

theorem violations_nested (route : List String) (part : String)
    (nodes : List (List String × DataType)) :
    violations route (nodes.map fun node => (part :: node.1, node.2)) =
      violations (route ++ [part]) nodes := by
  simp [violations, List.flatMap_map]

theorem violations_cons (route : List String) (t : DataType)
    (nodes : List (List String × DataType)) :
    violations route (([], t) :: nodes) = t.faults.map (route, ·) ++ violations route nodes := by
  simp [violations]

open Problems

mutual

theorem located_check_perm {route : List String} (hroute : route ≠ []) (p : Problems) :
    ∀ t : DataType, (t.check route p).located.Perm (p.located ++ violations route t.nodes)
  | { kind := .void, .. } => by
      simp [check, nodes, violations, faults]
  | { kind := .scalar s, .. } => by
      simp [check, nodes, violations, faults]
  | { kind := .list element, .. } => by
      rw [check, nodes, violations_cons, violations_nested, ← List.append_assoc]
      refine (located_check_perm (by simp) _ element).trans (List.Perm.append_right _ ?_)
      refine (located_report_if _ hroute _ _).trans ?_
      refine ((located_report_if p hroute _ _).append_right _).trans ?_
      rw [faults, List.append_assoc, List.map_append]
      simp only [apply_ite (List.map _), List.map_cons, List.map_nil]
      exact List.Perm.refl _
  | { kind := .dict ⟨fields⟩, .. } => by
      rw [check, nodes, violations_cons]
      exact located_checkFields_perm hroute p fields
  | { kind := .enum _ underlying members, .. } => by
      simp only [check, nodes]
      rw [violations_cons]
      refine (located_report_if _ hroute _ _).trans ?_
      refine ((located_report_unless p hroute _ _).append_right _).trans ?_
      rw [faults, List.append_assoc, List.map_append]
      simp only [apply_ite (List.map _), List.map_cons, List.map_nil, violations,
        List.flatMap_nil, List.append_nil]
      exact List.Perm.refl _

theorem located_checkFields_perm {route : List String} (hroute : route ≠ []) (p : Problems) :
    ∀ fields : List (String × DataType), (checkFields route p fields).located.Perm
      (p.located ++ ((((fields.map (·.1)).filter (!Naming.isIdentifier ·)).map
          (fun name => "field name '" ++ name ++ "' is not an identifier")).map (route, ·)
        ++ violations route (nodesOf fields)))
  | [] => by simp [checkFields, nodesOf, violations]
  | (name, t) :: rest => by
      rw [checkFields, nodesOf, violations_append, violations_nested]
      refine (located_checkFields_perm hroute _ rest).trans ?_
      refine ((located_check_perm (by simp) _ t).append_right _).trans ?_
      refine (((located_report_unless p hroute _ _).append_right _).append_right _).trans ?_
      -- the names of the fields are looked at between the fields
      cases hname : Naming.isIdentifier name <;>
        simp [hname, List.perm_iff_count, List.count_append, List.count_cons] <;> omega

end

end DataType

namespace Operation

/-- The types of an operation, each under its name: those of the arguments, and the result. -/
def roots (o : Operation) : List (String × DataType) :=
  o.arguments.map (fun a => (a.name, a.type)) ++ [("result", o.result)]

def violations (o : Operation) : List (List String × String) :=
  (repeats (o.arguments.map Argument.name)).map
      (fun name => ([], "duplicate argument '" ++ name ++ "'"))
    ++ o.roots.flatMap fun root => DataType.violations [root.1] root.2.nodes

open Problems

theorem located_checkArguments_perm (arguments : List Argument) (p : Problems)
    (seen : List String) :
    (checkArguments p seen arguments).located.Perm
      (p.located ++ ((repeatsAfter seen (arguments.map Argument.name)).map
          (fun name => ([], "duplicate argument '" ++ name ++ "'"))
        ++ arguments.flatMap fun a => DataType.violations [a.name] a.type.nodes)) := by
  induction arguments generalizing p seen with
  | nil => simp [checkArguments]
  | cons a rest ih =>
      rw [checkArguments]
      refine (ih _ _).trans ?_
      refine ((DataType.located_check_perm (by simp) _ a.type).append_right _).trans ?_
      by_cases hseen : a.name ∈ seen
      · rw [if_pos hseen]
        refine (((located_add_perm p _).append_right _).append_right _).trans ?_
        simp [repeatsAfter_cons, hseen, List.perm_iff_count, List.count_append, List.count_cons]
        omega
      · simp [repeatsAfter_cons, hseen, List.perm_iff_count, List.count_append]
        omega

theorem located_check_perm (o : Operation) : o.check.located.Perm o.violations := by
  rw [check]
  refine (DataType.located_check_perm (by simp) _ o.result).trans ?_
  refine ((located_checkArguments_perm o.arguments .empty []).append_right _).trans ?_
  rw [located_empty, List.nil_append, violations, roots, List.flatMap_append, List.flatMap_map,
    List.append_assoc, repeats_eq]
  simp

end Operation

namespace Service

def violations (s : Service) : List (List String × String) :=
  s.operations.flatMap fun o => o.violations.map fun v => (s.name :: o.name :: v.1, v.2)

open Problems

theorem located_check_perm (s : Service) :
    (s.check.located.map (under s.name)).Perm s.violations := by
  rw [check, violations]
  have h := (located_foldl_attach_perm Operation.name Operation.check s.operations .empty).map
    (under s.name)
  rw [located_empty, List.nil_append, List.map_flatMap] at h
  refine h.trans (List.Perm.flatMap_left s.operations ?_)
  intro o ho
  rw [List.map_map]
  exact o.located_check_perm.map (under s.name ∘ under o.name)

theorem located_checkAll_perm (services : List Service) :
    (checkAll services).located.Perm (services.flatMap violations) := by
  rw [checkAll]
  refine (located_foldl_attach_perm Service.name Service.check services .empty).trans ?_
  rw [located_empty, List.nil_append]
  exact List.Perm.flatMap_left services fun s hs => s.located_check_perm

theorem violations_eq_nil_iff (s : Service) :
    s.violations = [] ↔ ∀ o ∈ s.operations, (o.arguments.map Argument.name).Nodup ∧
      ∀ root ∈ o.roots, ∀ node ∈ root.2.nodes, node.2.Sound := by
  rw [violations, List.flatMap_eq_nil_iff]
  refine forall₂_congr fun o ho => ?_
  rw [List.map_eq_nil_iff, Operation.violations, List.append_eq_nil_iff, List.map_eq_nil_iff,
    repeats_eq_nil_iff, List.flatMap_eq_nil_iff]
  refine and_congr_right fun _ => forall₂_congr fun root hroot => ?_
  rw [DataType.violations, List.flatMap_eq_nil_iff]
  refine forall₂_congr fun node hnode => ?_
  rw [List.map_eq_nil_iff, DataType.faults_eq_nil_iff]

theorem isOk_iff_forall_sound (services : List Service) :
    (checkAll services).isOk = true ↔ ∀ s ∈ services, ∀ o ∈ s.operations,
      (o.arguments.map Argument.name).Nodup ∧
        ∀ root ∈ o.roots, ∀ node ∈ root.2.nodes, node.2.Sound := by
  have hperm := located_checkAll_perm services
  rw [isOk, ← located_eq_nil_iff]
  have hnil : (checkAll services).located = [] ↔ services.flatMap violations = [] :=
    ⟨fun h => List.perm_nil.mp (h ▸ hperm.symm), fun h => List.perm_nil.mp (h ▸ hperm)⟩
  rw [hnil, List.flatMap_eq_nil_iff]
  exact forall₂_congr fun s hs => s.violations_eq_nil_iff

/-- Services are accepted exactly when no operation has two arguments of one name and nothing is
wrong with any type that an operation reaches; and the check reports every violation exactly once,
under the names that lead to it. -/
theorem checkAll_reports_violations (services : List Service) :
    ((checkAll services).isOk = true ↔ ∀ s ∈ services, ∀ o ∈ s.operations,
        (o.arguments.map Argument.name).Nodup ∧
          ∀ root ∈ o.roots, ∀ node ∈ root.2.nodes, node.2.Sound) ∧
      ((∀ s ∈ services, s.name ≠ "") →
        (checkAll services).flatten.Perm
          ((services.flatMap violations).map fun v => (".".intercalate v.1, v.2))) := by
  refine ⟨isOk_iff_forall_sound services, fun hnames => ?_⟩
  rw [flatten_eq]
  have hjoined : ∀ v ∈ services.flatMap violations,
      (v.1.foldl joinRoute "", v.2) = (".".intercalate v.1, v.2) := by
    intro v hv
    obtain ⟨s, hs, hv⟩ := List.mem_flatMap.mp hv
    obtain ⟨o, ho, hv⟩ := List.mem_flatMap.mp hv
    obtain ⟨inner, -, rfl⟩ := List.mem_map.mp hv
    -- the first part is the name of the service, and nothing stands in front of it
    have hfirst : joinRoute "" s.name = s.name := rfl
    rw [List.foldl_cons, hfirst, foldl_joinRoute (hnames s hs)]
  rw [← List.map_congr_left hjoined]
  exact (located_checkAll_perm services).map _

end Service

namespace ViolationsWitness

open DataType

/-- An enumeration over a dict with a strange field, and without members: only the enumeration
itself is looked at. -/
def emptyEnum : DataType :=
  enumeration none (dict ⟨[("2fa", void)]⟩) .empty

/-- An operation with an argument that comes again and with faults at three depths. -/
def faulty : Operation := {
  Operation.named "place" with
  arguments := [.ofType "items" (list (list void)),
    .ofType "items" (dict ⟨[("user-id", dict ⟨[("2fa", emptyEnum)]⟩), ("ok", scalar .int)]⟩)]
  result := list emptyEnum }

/-- Two services of one name. -/
def orders : List Service :=
  [⟨"Orders", ⟨"app", "Orders"⟩, [faulty], none, none⟩,
    ⟨"Orders", ⟨"old", "Orders"⟩, [faulty], none, none⟩]

theorem orders_violations_reported :
    (∀ s ∈ orders, s.name ≠ "") ∧
      (Service.checkAll orders).flatten.Perm
        ((orders.flatMap Service.violations).map fun v => (".".intercalate v.1, v.2)) := by
  have hnames : ∀ s ∈ orders, s.name ≠ "" := by decide
  exact ⟨hnames, (Service.checkAll_reports_violations orders).2 hnames⟩

/-- What is wrong with one of them. -/
example : faulty.violations =
    [([], "duplicate argument 'items'"),
      (["items"], "list element cannot be a list"),
      (["items", "elem"], "list element cannot be void"),
      (["items"], "field name 'user-id' is not an identifier"),
      (["items", "user-id"], "field name '2fa' is not an identifier"),
      (["items", "user-id", "2fa"], "enum underlying type must be a scalar"),
      (["items", "user-id", "2fa"], "enum has no members"),
      (["result", "elem"], "enum underlying type must be a scalar"),
      (["result", "elem"], "enum has no members")] := by
  decide +kernel

end ViolationsWitness

end ServiceGen

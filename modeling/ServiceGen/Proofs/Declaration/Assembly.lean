import Mathlib.Tactic.Tauto
import ServiceGen.Declaration.Assembly
import ServiceGen.Proofs.Declaration.Methods

/-!
How classes become services.  With an implementation demanded, classes are put together exactly when
the operations of each can be found and each that offers any has an implementation; the services are
those of the classes that offer something, in the order of their names, and the order of the classes
matters only for names that are equal up to case.  The main statement is `Service.assemble_bound`.
-/

namespace ServiceGen

open Counted

namespace ClassDeclaration

variable {c : ClassDeclaration} {implementations : List ClassDeclaration}

/-- The class has a method that is offered to callers. -/
def offers (c : ClassDeclaration) : Bool :=
  !c.methods.isEmpty

/-- Some class has the name that an implementation of this one has. -/
def IsImplemented (implementations : List ClassDeclaration) (c : ClassDeclaration) : Prop :=
  ∃ i ∈ implementations, i.name = c.implementedBy

/-- The service that a class becomes: its operations are those of its methods in the order of their
names, and it is bound to the first implementation with the right name. -/
structure Becomes (implementations : List ClassDeclaration) (c : ClassDeclaration) (s : Service) :
    Prop where
  name : s.name = c.name
  declaredAs : s.declaredAs = c.className
  webNamespace : s.webNamespace = c.webNamespace
  operations : ∃ shared e declared, c.sharedArguments.Gives shared e ∧
    List.Forall₂ (fun m o => o.name = m.name ∧ ∃ e, (m.operation shared).Gives o e)
      c.methods declared ∧
    InNameOrder Operation.name declared s.operations
  implementation : ∃ before i after, implementations = before ++ i :: after ∧
    i.name = c.implementedBy ∧ (∀ j ∈ before, j.name ≠ c.implementedBy) ∧
    s.implementation = some i.className

/-- The service of a class with some operations. -/
def withOperations (implementations : List ClassDeclaration) (c : ClassDeclaration)
    (operations : List Operation) : Service where
  name := c.name
  declaredAs := c.className
  operations
  implementation := (implementations.find? (·.name == c.implementedBy)).map className
  webNamespace := c.webNamespace

/-- A class has one operation for each of its public methods. -/
theorem operations_ne_nil_iff {operations : List Operation} {e : Degradations}
    (h : c.operations.Gives operations e) : operations ≠ [] ↔ c.offers = true := by
  obtain ⟨shared, e₀, declared, -, hdeclared, rfl, -⟩ := operations_gives_iff.mp h
  have hlength : (sortByName Operation.name (declared.map Prod.fst)).length = c.methods.length := by
    rw [(sortByName_perm _ _).length_eq, List.length_map, hdeclared.length_eq]
  rw [offers, ← List.length_pos_iff, hlength]
  cases c.methods <;> simp

theorem isImplemented_iff :
    c.IsImplemented implementations ↔
      (implementations.find? (·.name == c.implementedBy)).isSome = true := by
  simp [IsImplemented]

/-- What becomes of a class with some operations. -/
def bound (needImplementation : Bool) (implementations : List ClassDeclaration)
    (c : ClassDeclaration) (operations : List Operation) : Counted (Option Service) :=
  if operations.isEmpty then pure none
  else if (implementations.find? (·.name == c.implementedBy)).isNone && needImplementation then
    throw (.missingImplementation c.name)
  else pure (some (c.withOperations implementations operations))

theorem service?_eq (needImplementation : Bool) (implementations : List ClassDeclaration)
    (c : ClassDeclaration) :
    c.service? needImplementation implementations =
      c.operations >>= c.bound needImplementation implementations := by
  rw [service?]
  congr 1

theorem steady_bound (needImplementation : Bool) (implementations : List ClassDeclaration)
    (c : ClassDeclaration) (operations : List Operation) :
    (c.bound needImplementation implementations operations).Steady :=
  steady_ite (steady_pure _) (steady_ite (steady_throw _) (steady_pure _))

theorem steady_service? (needImplementation : Bool) (implementations : List ClassDeclaration)
    (c : ClassDeclaration) : (c.service? needImplementation implementations).Steady := by
  rw [service?_eq]
  exact c.steady_operations.bind (c.steady_bound _ _)

theorem bound_gives_iff {needImplementation : Bool} {operations : List Operation}
    {r : Option Service} {e : Degradations} :
    (c.bound needImplementation implementations operations).Gives r e ↔ e = 0 ∧
      (operations = [] ∧ r = none ∨ operations ≠ [] ∧
        (needImplementation = true → c.IsImplemented implementations) ∧
          r = some (c.withOperations implementations operations)) := by
  rw [bound, isImplemented_iff]
  split
  · rename_i hnil
    rw [List.isEmpty_iff] at hnil
    simp [gives_pure_iff, hnil, and_comm]
  · rename_i hsome
    rw [List.isEmpty_iff] at hsome
    split
    · rename_i hunbound
      rw [Bool.and_eq_true, Option.isNone_iff_eq_none] at hunbound
      simp [not_gives_throw, hsome, hunbound]
    · rename_i hbound
      have himplemented : needImplementation = true →
          (implementations.find? (·.name == c.implementedBy)).isSome = true := by
        intro hneed
        rw [hneed, Bool.and_true, Option.isNone_iff_eq_none] at hbound
        exact Option.isSome_iff_ne_none.mpr hbound
      simp only [gives_pure_iff, hsome]
      tauto

/-- The service of a class, if there is one. -/
theorem service?_gives_iff {needImplementation : Bool} {r : Option Service} {e : Degradations} :
    (c.service? needImplementation implementations).Gives r e ↔
      ∃ operations, c.operations.Gives operations e ∧
        (c.offers = false ∧ r = none ∨
          c.offers = true ∧ (needImplementation = true → c.IsImplemented implementations) ∧
            r = some (c.withOperations implementations operations)) := by
  rw [service?_eq, gives_bind_iff c.steady_operations (c.steady_bound _ _)]
  simp only [bound_gives_iff]
  constructor
  · rintro ⟨operations, e, _, hoperations, ⟨rfl, h⟩, rfl⟩
    rw [operations_ne_nil_iff hoperations, ← not_ne_iff, operations_ne_nil_iff hoperations,
      Bool.not_eq_true] at h
    exact ⟨operations, by rwa [add_zero], h⟩
  · rintro ⟨operations, hoperations, h⟩
    refine ⟨operations, e, 0, hoperations, ⟨rfl, ?_⟩, (add_zero e).symm⟩
    rwa [operations_ne_nil_iff hoperations, ← not_ne_iff, operations_ne_nil_iff hoperations,
      Bool.not_eq_true]

/-- A class with an implementation becomes a service. -/
theorem becomes_withOperations {operations : List Operation} {e : Degradations}
    (hoperations : c.operations.Gives operations e)
    (himplemented : c.IsImplemented implementations) :
    Becomes implementations c (c.withOperations implementations operations) where
  name := rfl
  declaredAs := rfl
  webNamespace := rfl
  operations := by
    obtain ⟨shared, e₀, declared, hshared, hdeclared, rfl, -⟩ := operations_gives_iff.mp hoperations
    refine ⟨shared, e₀, declared.map Prod.fst, hshared, ?_, inNameOrder_sortByName _ _⟩
    refine List.forall₂_map_right_iff.mpr (hdeclared.imp fun m r hr => ?_)
    exact ⟨Method.name_of_operation_gives hr, r.2, hr⟩
  implementation := by
    rw [isImplemented_iff, Option.isSome_iff_exists] at himplemented
    obtain ⟨i, hi⟩ := himplemented
    obtain ⟨hname, before, after, rfl, hbefore⟩ := List.find?_eq_some_iff_append.mp hi
    refine ⟨before, i, after, rfl, beq_iff_eq.mp hname, fun j hj => ?_, congrArg (Option.map _) hi⟩
    simpa using hbefore j hj

end ClassDeclaration

namespace Service

open ClassDeclaration

variable {needImplementation : Bool} {classes implementations : List ClassDeclaration}

theorem steady_assemble (needImplementation : Bool)
    (classes implementations : List ClassDeclaration) :
    (assemble needImplementation classes implementations).Steady :=
  (steady_mapM (steady_service? needImplementation implementations) classes).bind fun _ =>
    steady_pure _

/-- The services are those of the classes one by one, in the order of their names, and what is lost
adds up. -/
theorem assemble_gives_iff {services : List Service} {e : Degradations} :
    (assemble needImplementation classes implementations).Gives services e ↔
      ∃ rs, List.Forall₂ (fun c r =>
          (c.service? needImplementation implementations).Gives r.1 r.2) classes rs ∧
        services = sortByName Service.name (rs.filterMap Prod.fst) ∧
        e = (rs.map Prod.snd).sum := by
  have hsteady := steady_service? needImplementation implementations
  rw [assemble, gives_bind_iff (steady_mapM hsteady classes) fun _ => steady_pure _]
  simp only [gives_mapM_iff hsteady, gives_pure_iff]
  constructor
  · rintro ⟨_, _, _, ⟨rs, hrs, rfl, rfl⟩, ⟨rfl, rfl⟩, rfl⟩
    refine ⟨rs, hrs, ?_, add_zero _⟩
    rw [List.filterMap_map]
    rfl
  · rintro ⟨rs, hrs, rfl, rfl⟩
    refine ⟨_, _, 0, ⟨rs, hrs, rfl, rfl⟩, ⟨?_, rfl⟩, (add_zero _).symm⟩
    rw [List.filterMap_map]
    rfl

/-- The classes that offer something become services, and the others nothing. -/
theorem forall₂_withOperations {rs : List (Option Service × Degradations)}
    (h : List.Forall₂ (fun c r => (c.service? needImplementation implementations).Gives r.1 r.2)
      classes rs) :
    List.Forall₂ (fun c s => ∃ operations e, c.operations.Gives operations e ∧
        (needImplementation = true → c.IsImplemented implementations) ∧
        s = c.withOperations implementations operations)
      (classes.filter offers) (rs.filterMap Prod.fst) := by
  induction h with
  | nil => exact .nil
  | @cons c r classes rs hfirst _ ih =>
      obtain ⟨r, e⟩ := r
      obtain ⟨operations, hoperations, ⟨hoffers, rfl⟩ | ⟨hoffers, himplemented, rfl⟩⟩ :=
        service?_gives_iff.mp hfirst
      · rw [List.filter_cons_of_neg (by simp [hoffers]), List.filterMap_cons_none rfl]
        exact ih
      · rw [List.filter_cons_of_pos hoffers, List.filterMap_cons_some (f := Prod.fst) rfl]
        exact .cons ⟨operations, e, hoperations, himplemented, rfl⟩ ih

/-- The order of the classes does not matter when no two names are equal up to case. -/
theorem assemble_gives_of_perm {others : List ClassDeclaration} {services : List Service}
    {e : Degradations} (hnames : (classes.map fun c => Text.lowerCase c.name).Nodup)
    (hperm : others.Perm classes)
    (h : (assemble needImplementation classes implementations).Gives services e) :
    (assemble needImplementation others implementations).Gives services e := by
  obtain ⟨rs, hrs, rfl, rfl⟩ := assemble_gives_iff.mp h
  obtain ⟨rs', hrs', hrsperm⟩ := List.perm_comp_forall₂ hperm hrs
  -- A service has the name of its class, so the names of the services are different as well.
  have hserviceNames : ((rs.filterMap Prod.fst).map fun s => Text.lowerCase s.name) =
      (classes.filter offers).map fun c => Text.lowerCase c.name := by
    have hsame : List.Forall₂ (· = ·)
        ((classes.filter offers).map fun c => Text.lowerCase c.name)
        ((rs.filterMap Prod.fst).map fun s => Text.lowerCase s.name) := by
      rw [List.forall₂_map_left_iff, List.forall₂_map_right_iff]
      refine (forall₂_withOperations hrs).imp ?_
      rintro c s ⟨operations, e, -, -, rfl⟩
      rfl
    rw [List.forall₂_eq_eq_eq] at hsame
    exact hsame.symm
  have hnodup : ((rs.filterMap Prod.fst).map fun s => Text.lowerCase s.name).Nodup := by
    rw [hserviceNames]
    exact hnames.sublist (List.filter_sublist.map _)
  refine assemble_gives_iff.mpr ⟨rs', hrs', ?_, (hrsperm.map Prod.snd).sum_eq.symm⟩
  exact (sortByName_eq_of_perm hnodup (hrsperm.filterMap Prod.fst)).symm

/-- All classes can be put together exactly when each of them can. -/
theorem exists_assemble_gives_iff (classes implementations : List ClassDeclaration) :
    (∃ services e, (assemble true classes implementations).Gives services e) ↔
      ∀ c ∈ classes, ∃ operations e, c.operations.Gives operations e ∧
        (c.offers = true → c.IsImplemented implementations) := by
  constructor
  · rintro ⟨services, e, h⟩
    obtain ⟨rs, hrs, -, -⟩ := assemble_gives_iff.mp h
    refine ((List.forall₂_and_left classes rs).mp (hrs.imp fun c r hr => ⟨?_, hr⟩)).1
    obtain ⟨operations, hoperations, ⟨hoffers, -⟩ | ⟨-, himplemented, -⟩⟩ :=
      service?_gives_iff.mp hr
    · exact ⟨operations, r.2, hoperations, by simp [hoffers]⟩
    · exact ⟨operations, r.2, hoperations, fun _ => himplemented rfl⟩
  · intro h
    have hservices : ∀ c ∈ classes, ∃ r : Option Service × Degradations,
        (c.service? true implementations).Gives r.1 r.2 := by
      intro c hc
      obtain ⟨operations, e, hoperations, himplemented⟩ := h c hc
      cases hoffers : c.offers with
      | true =>
          exact ⟨(some (c.withOperations implementations operations), e), service?_gives_iff.mpr
            ⟨operations, hoperations, .inr ⟨hoffers, fun _ => himplemented hoffers, rfl⟩⟩⟩
      | false =>
          exact ⟨(none, e), service?_gives_iff.mpr
            ⟨operations, hoperations, .inl ⟨hoffers, rfl⟩⟩⟩
    choose! r hr using hservices
    exact ⟨_, _, assemble_gives_iff.mpr ⟨classes.map r,
      List.forall₂_map_right_iff.mpr (List.forall₂_same.mpr hr), rfl, rfl⟩⟩

/-- Classes are put together to services, whatever was counted before, exactly when the operations
of each class can be found and each that offers any has an implementation.  The services are then
those of the classes that offer any, in the order of their names; and unless two names are equal up
to case, the order of the classes matters neither for them nor for whether there are any. -/
theorem assemble_bound (classes implementations : List ClassDeclaration) (d d₁ : Degradations) :
    ((∃ r, assemble true classes implementations d = .ok r) ↔
      ∀ c ∈ classes, ∃ operations d', c.operations d₁ = .ok (operations, d') ∧
        (operations ≠ [] ↔ c.offers = true) ∧
        (operations ≠ [] → c.IsImplemented implementations)) ∧
    (∀ services d', assemble true classes implementations d = .ok (services, d') →
      ∃ found, List.Forall₂ (Becomes implementations) (classes.filter offers) found ∧
        InNameOrder Service.name found services) ∧
    ((classes.map fun c => Text.lowerCase c.name).Nodup → ∀ others, others.Perm classes → ∀ r,
      assemble true others implementations d = .ok r ↔
        assemble true classes implementations d = .ok r) := by
  have hsteady := steady_assemble true classes implementations
  refine ⟨?_, fun services d' h => ?_, fun hnames others hperm r => ?_⟩
  · simp only [Prod.exists, hsteady.eq_ok_iff, (steady_operations _).eq_ok_iff]
    have hall := exists_assemble_gives_iff classes implementations
    constructor
    · rintro ⟨services, _, e, hgives, -⟩ c hc
      obtain ⟨operations, e', hoperations, himplemented⟩ := hall.mp ⟨services, e, hgives⟩ c hc
      have hoffers := operations_ne_nil_iff hoperations
      exact ⟨operations, _, ⟨e', hoperations, rfl⟩, hoffers, fun h => himplemented (hoffers.mp h)⟩
    · intro h
      obtain ⟨services, e, hgives⟩ := hall.mpr fun c hc => by
        obtain ⟨operations, _, ⟨e, hoperations, -⟩, hoffers, himplemented⟩ := h c hc
        exact ⟨operations, e, hoperations, fun h => himplemented (hoffers.mpr h)⟩
      exact ⟨services, _, e, hgives, rfl⟩
  · obtain ⟨e, hgives, -⟩ := hsteady.eq_ok_iff.mp h
    obtain ⟨rs, hrs, rfl, -⟩ := assemble_gives_iff.mp hgives
    refine ⟨rs.filterMap Prod.fst, (forall₂_withOperations hrs).imp ?_, inNameOrder_sortByName _ _⟩
    rintro c s ⟨operations, e, hoperations, himplemented, rfl⟩
    exact becomes_withOperations hoperations (himplemented rfl)
  · have hnames' : (others.map fun c => Text.lowerCase c.name).Nodup :=
      ((hperm.map _).nodup_iff).mpr hnames
    obtain ⟨services, d'⟩ := r
    rw [(steady_assemble true others implementations).eq_ok_iff, hsteady.eq_ok_iff]
    exact exists_congr fun e => and_congr_left' ⟨assemble_gives_of_perm hnames' hperm.symm,
      assemble_gives_of_perm hnames hperm⟩

end Service

namespace AssemblyWitness

open ClassDeclaration Service

/-- A class with one public method, or with none. -/
def shop (name : String) (kind : MemberKind) : ClassDeclaration where
  name
  module := "app.shop"
  capability := .serviceBase
  implementationName := some (name ++ "Impl")
  classDoc := none
  webNamespace := none
  members := ⟨[("find",
    { kind, doc := none, plainArguments := none, plainResult := none, memberDoc := none,
      signature := .empty })]⟩

def shops : List ClassDeclaration :=
  [shop "orders" .function, shop "closed" .value, shop "Clients" .classMethod]

def implementations : List ClassDeclaration :=
  [shop "ClientsImpl" .value, shop "ordersImpl" .value]

/-- The operations of each shop can be found, and the open ones have an implementation. -/
theorem shops_ready (c : ClassDeclaration) (hc : c ∈ shops) :
    ∃ operations d', c.operations .none = .ok (operations, d') ∧
      (operations ≠ [] ↔ c.offers = true) ∧
      (operations ≠ [] → c.IsImplemented implementations) := by
  have hok : ∀ c ∈ shops, (c.operations .none).isOk = true := by decide
  have hfound : ∀ c ∈ shops, c.offers = true →
      (implementations.find? (·.name == c.implementedBy)).isSome = true := by decide
  obtain ⟨⟨operations, d'⟩, hoperations⟩ : ∃ r, c.operations .none = .ok r := by
    have hc := hok c hc
    cases h : c.operations .none with
    | ok r => exact ⟨r, rfl⟩
    | error failure => simp [h, Except.isOk, Except.toBool] at hc
  obtain ⟨e, hgives, -⟩ := c.steady_operations.eq_ok_iff.mp hoperations
  have hoffers := operations_ne_nil_iff hgives
  exact ⟨operations, d', hoperations, hoffers,
    fun h => isImplemented_iff.mpr (hfound c hc (hoffers.mp h))⟩

/-- The shops that are open are put together in the order of their names, whatever order they come
in. -/
theorem open_shops_bound :
    (shops.map fun c => Text.lowerCase c.name).Nodup ∧ shops.reverse.Perm shops ∧
      ∃ services d', assemble true shops implementations .none = .ok (services, d') ∧
        assemble true shops.reverse implementations .none = .ok (services, d') ∧
        services.map (fun s => Text.lowerCase s.name) = ["clients", "orders"] := by
  have h := assemble_bound shops implementations .none .none
  have hnames : (shops.map fun c => Text.lowerCase c.name).Nodup := by decide
  have hperm := shops.reverse_perm
  obtain ⟨⟨services, d'⟩, hservices⟩ := h.1.mpr shops_ready
  refine ⟨hnames, hperm, services, d', hservices, (h.2.2 hnames _ hperm _).mpr hservices, ?_⟩
  obtain ⟨found, hfound, horder⟩ := h.2.1 services d' hservices
  have hopen : shops.filter offers = [shop "orders" .function, shop "Clients" .classMethod] := rfl
  rw [hopen] at hfound
  obtain ⟨orders, _, horders, hrest, rfl⟩ := List.forall₂_cons_left_iff.mp hfound
  obtain ⟨clients, _, hclients, hnil, rfl⟩ := List.forall₂_cons_left_iff.mp hrest
  obtain rfl := List.forall₂_nil_left_iff.mp hnil
  have hserviceNames :
      (services.map fun s => Text.lowerCase s.name).Perm ["clients", "orders"] := by
    refine (horder.perm.map _).trans ?_
    rw [List.map_cons, List.map_singleton, horders.name, hclients.name]
    decide
  have hsorted : (services.map fun s => Text.lowerCase s.name).Pairwise (· ≤ ·) :=
    List.pairwise_map.mpr horder.ascending
  exact hserviceNames.eq_of_pairwise (fun a b _ _ => le_antisymm) hsorted (by decide)

end AssemblyWitness

end ServiceGen

import Mathlib.Algebra.GroupWithZero.Nat
import ServiceGen.Proofs.Declaration.Methods
import ServiceGen.Proofs.Declaration.Typing

/-!
The arguments of a documented method.  They are those of the class, those of the documentation, and
those of the signature whose names are still free, in this order; a parameter of the signature that
gives no argument and has no namesake among them was counted as a fallback.  The main statement is
`ClassDeclaration.documented_arguments_merged`.
-/

namespace ServiceGen

open Counted

def Parameter.type (p : Parameter) : DataType :=
  (TypeHint.adapt? none p.hint).1

/-- What is lost on the way to the type of a parameter. -/
def Parameter.losses (p : Parameter) : Degradations :=
  (TypeHint.adapt? none p.hint).2

/-- A parameter without a type was counted. -/
theorem Parameter.one_le_voidFallbacks {p : Parameter} (h : p.type.isVoid = true) :
    1 ≤ p.losses.voidFallbacks := by
  have haccounts := TypeHint.accounts_adapt? none p.hint
  have hfallbacks : p.losses.voidFallbacks = p.type.voids := haccounts.fallbacks
  have hvoid : p.type = .void := haccounts.void h
  rw [hfallbacks, hvoid]
  decide

namespace Signature

/-- The parameters whose names are still free, each with its place. -/
def free (known : List String) : List (Parameter × Nat) → List (Parameter × Nat)
  | [] => []
  | x :: rest =>
      if x.1.type.isVoid || known.contains x.1.name then free known rest
      else x :: free (known ++ [x.1.name]) rest

/-- Some positional parameters, with their places, are those that give arguments where some names
are known already: in their order, exactly those that have a type and a name that is neither known
nor that of a parameter taken before. -/
structure Takes (s : Signature) (known : List String) (taken : List (Parameter × Nat)) : Prop where
  sublist : taken.Sublist s.positional.zipIdx
  mem_iff : ∀ x ∈ s.positional.zipIdx, x ∈ taken ↔
    x.1.type.isVoid = false ∧ x.1.name ∉ known ∧
      ∀ y ∈ taken, y.2 < x.2 → y.1.name ≠ x.1.name

theorem free_sublist (ps : List (Parameter × Nat)) :
    ∀ known, (free known ps).Sublist ps := by
  induction ps with
  | nil => exact fun known => .slnil
  | cons x rest ih =>
      intro known
      rw [free]
      split
      · exact (ih known).cons x
      · exact (ih _).cons_cons x

/-- A parameter comes before those that are taken after it, so what these are called does not matter
for it. -/
theorem mem_free_iff (ps : List (Parameter × Nat)) (hplaces : ps.Pairwise fun x y => x.2 < y.2) :
    ∀ known, ∀ x ∈ ps, x ∈ free known ps ↔
      x.1.type.isVoid = false ∧ x.1.name ∉ known ∧
        ∀ y ∈ free known ps, y.2 < x.2 → y.1.name ≠ x.1.name := by
  induction ps with
  | nil => simp
  | cons p rest ih =>
      rw [List.pairwise_cons] at hplaces
      intro known x hx
      have hlater : ∀ known, ∀ y ∈ free known rest, p.2 < y.2 := fun known y hy =>
        hplaces.1 y ((free_sublist rest known).subset hy)
      rw [free]
      split
      · rename_i hskip
        rcases List.mem_cons.mp hx with rfl | hx
        -- A parameter that is left out does not come again: all later places are higher.
        · constructor
          · exact fun h => absurd (hlater known x h) (Nat.lt_irrefl _)
          · rintro ⟨hvoid, hknown, -⟩
            simp [hvoid, hknown] at hskip
        · exact ih hplaces.2 known x hx
      · rename_i htake
        simp only [Bool.or_eq_true, List.contains_eq_mem, decide_eq_true_eq, not_or,
          Bool.not_eq_true] at htake
        rcases List.mem_cons.mp hx with rfl | hx
        · refine iff_of_true List.mem_cons_self ⟨htake.1, htake.2, ?_⟩
          rw [List.forall_mem_cons]
          exact ⟨fun h => absurd h (Nat.lt_irrefl _),
            fun y hy h => absurd h (Nat.lt_asymm (hlater _ y hy))⟩
        -- For a later one, the name of `p` is known now; before, `p` was one of those taken.
        · have hplace : p.2 < x.2 := hplaces.1 x hx
          have hne : x ≠ p := fun h => absurd hplace (h ▸ Nat.lt_irrefl _)
          rw [List.mem_cons, or_iff_right hne, ih hplaces.2 _ x hx, List.forall_mem_cons,
            List.mem_append, List.mem_singleton, not_or]
          constructor
          · rintro ⟨hvoid, ⟨hknown, hname⟩, htaken⟩
            exact ⟨hvoid, hknown, fun _ h => hname h.symm, htaken⟩
          · rintro ⟨hvoid, hknown, hname, htaken⟩
            exact ⟨hvoid, ⟨hknown, fun h => hname hplace h.symm⟩, htaken⟩

theorem pairwise_places {α : Type} (items : List α) (k : Nat) :
    (items.zipIdx k).Pairwise fun x y => x.2 < y.2 := by
  rw [← List.pairwise_map (f := Prod.snd) (R := (· < ·)), List.zipIdx_map_snd]
  exact List.pairwise_lt_range' ..

theorem takes_free (s : Signature) (known : List String) :
    s.Takes known (free known s.positional.zipIdx) where
  sublist := free_sublist _ known
  mem_iff := mem_free_iff _ (pairwise_places s.positional 0) known

/-- The defaults are aligned to the end: when no two positional parameters have the same name and
there are not too many defaults, the last parameter has the last default, and so on. -/
theorem defaultFor?_eq {s : Signature} (hnames : (s.positional.map (·.name)).Nodup)
    (hdefaults : s.defaults.length ≤ s.positional.length) {x : Parameter × Nat}
    (hx : x ∈ s.positional.zipIdx) :
    s.defaultFor? x.1.name = s.defaults.reverse[s.positional.length - 1 - x.2]? := by
  obtain ⟨hlt, hget⟩ := List.getElem?_eq_some_iff.mp (List.mem_zipIdx_iff_getElem?.mp hx)
  have hfind : s.positional.findIdx? (·.name == x.1.name) = some x.2 := by
    rw [List.findIdx?_eq_some_iff_getElem]
    refine ⟨hlt, by simp [hget], fun j hj heq => ?_⟩
    have hj' : j < (s.positional.map (·.name)).length := by
      rw [List.length_map]
      omega
    have hname : (s.positional.map (·.name))[j]? = (s.positional.map (·.name))[x.2]? := by
      simpa [hlt, Nat.lt_trans hj hlt, hget] using heq
    exact absurd ((List.getElem?_inj hj' hnames).mp hname) (Nat.ne_of_lt hj)
  rw [defaultFor?, if_neg (Nat.not_lt.mpr hdefaults), hfind]
  dsimp only
  split
  · rename_i hindex
    rw [List.getElem?_eq_none]
    rw [List.length_reverse]
    omega
  · rename_i hindex
    rw [List.getElem?_reverse (by omega)]
    congr 1
    omega

end Signature

namespace Method

/-- The argument for a parameter of the signature. -/
def argumentFor (m : Method) (p : Parameter) : Argument :=
  m.signatureArgument p.name p.type

theorem gives_free (m : Method) (reserved : List String) (ps : List (Parameter × Nat)) :
    ∀ known : List Argument, (m.signatureArguments reserved known (ps.map Prod.fst)).Gives
      (known ++ (Signature.free (reserved ++ known.map (·.name)) ps).map (m.argumentFor ·.1))
      (ps.map (·.1.losses)).sum := by
  induction ps with
  | nil =>
      intro known
      rw [Signature.free, List.map_nil, List.map_nil, List.append_nil]
      exact gives_pure known
  | cons x rest ih =>
      intro known
      rw [List.map_cons, List.map_cons, List.sum_cons]
      refine (gives_record (TypeHint.adapt? none x.1.hint)).bind ?_
      rw [Signature.free]
      -- The names that are taken and those that are reserved count as one list of known names.
      have hfree : ((TypeHint.adapt? none x.1.hint).1.isVoid ||
            (known.map (·.name)).contains x.1.name || reserved.contains x.1.name) =
          (x.1.type.isVoid || (reserved ++ known.map (·.name)).contains x.1.name) := by
        rw [Bool.or_assoc, List.contains_append, Bool.or_comm (reserved.contains _)]
        rfl
      rw [hfree]
      split
      · exact ih known
      · have hrest := ih (known ++ [m.argumentFor x.1])
        rw [List.map_append, ← List.append_assoc, List.append_assoc] at hrest
        exact hrest

/-- The arguments of the signature come last, one for each parameter that is taken; what is lost on
the way to the type of any parameter is counted. -/
theorem signatureArguments_gives {m : Method} {reserved : List String} {known own : List Argument}
    {e : Degradations}
    (h : (m.signatureArguments reserved known m.member.signature.positional).Gives own e) :
    ∃ taken, m.member.signature.Takes (reserved ++ known.map (·.name)) taken ∧
      own = known ++ taken.map (m.argumentFor ·.1) ∧
      e = (m.member.signature.positional.map Parameter.losses).sum := by
  have hfree := gives_free m reserved m.member.signature.positional.zipIdx known
  rw [List.zipIdx_map_fst] at hfree
  obtain ⟨rfl, rfl⟩ := h.unique hfree
  refine ⟨_, m.member.signature.takes_free _, rfl, ?_⟩
  have hplaces : m.member.signature.positional.zipIdx.map (·.1.losses) =
      (m.member.signature.positional.zipIdx.map Prod.fst).map Parameter.losses := by
    rw [List.map_map]
    rfl
  rw [hplaces, List.zipIdx_map_fst]

/-- The argument stands for a parameter of the signature: it has its name and its type, with the
notes of the type, the text of the docstring about it, and the default that is aligned to it. -/
structure StandsFor (m : Method) (x : Parameter × Nat) (a : Argument) : Prop where
  name : a.name = x.1.name
  type : a.type = x.1.type
  required : a.required = x.1.type.required
  source : a.source = x.1.type.source
  description : a.description = (Docstring.param? m.doc x.1.name).getD ""
  default : (m.member.signature.positional.map (·.name)).Nodup →
    m.member.signature.defaults.length ≤ m.member.signature.positional.length →
      a.default = (m.member.signature.defaults.reverse[
        m.member.signature.positional.length - 1 - x.2]?).filter (!·.isNull)

/-- The arguments of a documented method: those of the class, those of the documentation and of what
it expects, and those of the signature that are taken.  A positional parameter whose name is not
among them has no type, and that was counted. -/
def Merges (m : Method) (doc : MemberDoc) (shared arguments : List Argument) : Prop :=
  ∃ params e expected taken own,
    (m.describedArguments false doc.params).Gives params e ∧
    List.Forall₂ (fun specs r => (m.describedArguments true specs).Gives r.1 r.2)
      doc.expect expected ∧
    m.member.signature.Takes (shared.map (·.name) ++
      (params ++ (expected.map Prod.fst).flatten).map (·.name)) taken ∧
    List.Forall₂ m.StandsFor taken own ∧
    arguments = shared ++ (params ++ (expected.map Prod.fst).flatten) ++ own ∧
    ∀ p ∈ m.member.signature.positional, p.name ∈ arguments.map (·.name) ∨
      p.type.isVoid = true ∧ 1 ≤ p.losses.voidFallbacks

/-- The positional parameters of a documented method whose names are not among the arguments of its
operation. -/
def unlisted (m : Method) (o : Operation) : List Parameter :=
  if m.member.memberDoc.isSome then
    m.member.signature.positional.filter fun p => !(o.arguments.map (·.name)).contains p.name
  else []

theorem standsFor_argumentFor (m : Method) {x : Parameter × Nat}
    (hx : x ∈ m.member.signature.positional.zipIdx) : m.StandsFor x (m.argumentFor x.1) where
  name := rfl
  type := rfl
  required := rfl
  source := rfl
  description := rfl
  default := fun hnames hdefaults =>
    congrArg (Option.filter _) (Signature.defaultFor?_eq hnames hdefaults hx)

/-- A parameter that is not taken has no type, or its name is there already. -/
theorem name_mem_or_isVoid {s : Signature} {known : List String} {taken : List (Parameter × Nat)}
    (h : s.Takes known taken) {p : Parameter} (hp : p ∈ s.positional) :
    p.name ∈ known ++ taken.map (·.1.name) ∨ p.type.isVoid = true := by
  obtain ⟨i, hi⟩ := List.mem_iff_getElem?.mp hp
  have hplaced : (p, i) ∈ s.positional.zipIdx := List.mem_zipIdx_iff_getElem?.mpr hi
  rw [List.mem_append, List.mem_map]
  by_cases hvoid : p.type.isVoid = true
  · exact .inr hvoid
  by_cases hknown : p.name ∈ known
  · exact .inl (.inl hknown)
  by_cases hnamesake : ∃ y ∈ taken, y.1.name = p.name
  · exact .inl (.inr hnamesake)
  · have htaken : (p, i) ∈ taken := (h.mem_iff _ hplaced).mpr
      ⟨Bool.eq_false_iff.mpr hvoid, hknown, fun y hy _ hname => hnamesake ⟨y, hy, hname⟩⟩
    exact .inl (.inr ⟨_, htaken, rfl⟩)

theorem length_filter_le_sum {ps : List Parameter} {keep : Parameter → Bool}
    (h : ∀ p ∈ ps, keep p = true → 1 ≤ p.losses.voidFallbacks) :
    (ps.filter keep).length ≤ (ps.map Parameter.losses).sum.voidFallbacks := by
  induction ps with
  | nil => exact Nat.le_refl 0
  | cons p rest ih =>
      rw [List.forall_mem_cons] at h
      have hrest := ih h.2
      rw [List.map_cons, List.sum_cons, Degradations.voidFallbacks_add]
      cases hkeep : keep p with
      | true =>
          have hfirst := h.1 hkeep
          rw [List.filter_cons_of_pos hkeep, List.length_cons]
          omega
      | false =>
          rw [List.filter_cons_of_neg (by simp [hkeep])]
          omega

theorem merges_of_gives {m : Method} {doc : MemberDoc} {shared : List Argument} {o : Operation}
    {e : Degradations} (hdoc : m.member.memberDoc = some doc)
    (h : (m.operation shared).Gives o e) :
    m.Merges doc shared o.arguments ∧ (m.unlisted o).length ≤ e.voidFallbacks := by
  obtain ⟨own, e₁, e₂, hown, harguments, rfl⟩ := documented_operation_gives hdoc h
  obtain ⟨-, params, e₃, expected, e₄, hparams, hexpected, hsignature, rfl⟩ :=
    documentedArguments_gives_iff.mp hown
  obtain ⟨taken, htakes, rfl, rfl⟩ := signatureArguments_gives hsignature
  have hcounted : ∀ p ∈ m.member.signature.positional, p.name ∈ o.arguments.map (·.name) ∨
      p.type.isVoid = true ∧ 1 ≤ p.losses.voidFallbacks := by
    intro p hp
    refine (name_mem_or_isVoid htakes hp).imp (fun hname => ?_) fun hvoid =>
      ⟨hvoid, Parameter.one_le_voidFallbacks hvoid⟩
    rw [harguments]
    simpa [argumentFor, signatureArgument, Argument.ofType] using hname
  constructor
  · refine ⟨params, e₃, expected, taken, taken.map (m.argumentFor ·.1), hparams, hexpected, htakes,
      ?_, ?_, hcounted⟩
    · exact List.forall₂_map_right_iff.mpr
        (List.forall₂_same.mpr fun x hx => standsFor_argumentFor m (htakes.sublist.subset hx))
    · rw [harguments, List.append_assoc shared]
  · rw [unlisted, hdoc]
    refine (length_filter_le_sum fun p hp hkeep => ?_).trans ?_
    · rcases hcounted p hp with hname | ⟨-, hlost⟩
      · simp [hname] at hkeep
      · exact hlost
    · simp only [Degradations.voidFallbacks_add]
      omega

theorem length_unlisted_le {m : Method} {shared : List Argument} {o : Operation}
    {e : Degradations} (h : (m.operation shared).Gives o e) :
    (m.unlisted o).length ≤ e.voidFallbacks := by
  cases hdoc : m.member.memberDoc with
  | none => simp [unlisted, hdoc]
  | some doc => exact (merges_of_gives hdoc h).2

theorem sum_unlisted_le {shared : List Argument} {methods : List Method}
    {declared : List (Operation × Degradations)}
    (h : List.Forall₂ (fun m r => (m.operation shared).Gives r.1 r.2) methods declared) :
    (List.zipWith (fun m o => (m.unlisted o).length) methods (declared.map Prod.fst)).sum ≤
      (declared.map Prod.snd).sum.voidFallbacks := by
  induction h with
  | nil => exact Nat.le_refl 0
  | cons hfirst _ ih =>
      simp only [List.map_cons, List.zipWith_cons_cons, List.sum_cons,
        Degradations.voidFallbacks_add]
      exact Nat.add_le_add (length_unlisted_le hfirst) ih

end Method

/-- What the operations of a class take, one for each public method: where a method is documented,
the arguments of the class, of the documentation and of the signature are merged, and every
positional parameter that is not among them adds to the fallbacks that were counted. -/
theorem ClassDeclaration.documented_arguments_merged {c : ClassDeclaration}
    {d d' : Degradations} {operations : List Operation}
    (h : c.operations d = .ok (operations, d')) :
    ∃ shared e declared, c.sharedArguments.Gives shared e ∧
      InNameOrder Operation.name declared operations ∧
      List.Forall₂ (fun m o => o.name = m.name ∧
        ∀ doc, m.member.memberDoc = some doc → m.Merges doc shared o.arguments)
        c.methods declared ∧
      d.voidFallbacks + (List.zipWith (fun m o => (m.unlisted o).length) c.methods declared).sum ≤
        d'.voidFallbacks := by
  obtain ⟨e, hgives, rfl⟩ := c.steady_operations.eq_ok_iff.mp h
  obtain ⟨shared, e₀, declared, hshared, hdeclared, rfl, rfl⟩ := operations_gives_iff.mp hgives
  refine ⟨shared, e₀, declared.map Prod.fst, hshared, inNameOrder_sortByName _ _, ?_, ?_⟩
  · refine List.forall₂_map_right_iff.mpr (hdeclared.imp fun m r hr => ?_)
    exact ⟨Method.name_of_operation_gives hr, fun doc hdoc => (Method.merges_of_gives hdoc hr).1⟩
  · have hlosses := Method.sum_unlisted_le hdeclared
    simp only [Degradations.voidFallbacks_add]
    omega

namespace MergedArgumentsWitness

/-- What is said about the method of a listing: an attribute and a field object. -/
def listingDoc : MemberDoc where
  params := ⟨[("q", .attributes ⟨[("type", .str "str")]⟩)]⟩
  expect := [⟨[("body", .field ⟨"String", none, none, ⟨[]⟩⟩)]⟩]
  responses := .empty

/-- Its signature has a parameter without a meaning, a namesake, and one more. -/
def listingMember : Member where
  kind := .function
  doc := some "fetch\n:param limit: page size"
  plainArguments := none
  plainResult := none
  memberDoc := some listingDoc
  signature := {
    parameters := [⟨"self", none⟩, ⟨"raw", some (.other .null)⟩, ⟨"q", some (.native .str)⟩,
      ⟨"limit", some (.native .int)⟩]
    defaults := [.str "all", .num (.int 10)] }

def listing : ClassDeclaration where
  name := "Listing"
  module := "app.service"
  capability := .serviceBase
  implementationName := none
  classDoc := some ⟨⟨[("tenant", ⟨[("in", .str "header")]⟩)]⟩⟩
  webNamespace := none
  members := ⟨[("get", listingMember)]⟩

def get : Method :=
  ⟨listing, "get", listingMember⟩

def argumentNames (operations : List Operation) : List (List String) :=
  operations.map fun o => o.arguments.map (·.name)

theorem listing_evaluated :
    (listing.operations .none).toOption.map (fun r => (argumentNames r.1, r.2)) =
      some ([["tenant", "q", "body", "limit"]], ⟨1, 0⟩) := by
  decide +kernel

/-- The arguments of the listing come from four places; the parameter that is not among them was
counted. -/
theorem listing_arguments_merged :
    ∃ o d', listing.operations .none = .ok ([o], d') ∧ d' = ⟨1, 0⟩ ∧
      o.arguments.map (·.name) = ["tenant", "q", "body", "limit"] ∧
      (∃ shared e, listing.sharedArguments.Gives shared e ∧
        get.Merges listingDoc shared o.arguments) ∧
      (get.unlisted o).map (·.name) = ["raw"] := by
  have hevaluated := listing_evaluated
  cases hrun : listing.operations .none with
  | error failure =>
      rw [hrun] at hevaluated
      cases hevaluated
  | ok r =>
      obtain ⟨operations, d'⟩ := r
      rw [hrun] at hevaluated
      obtain ⟨hnames, hlost⟩ := Prod.mk.inj (Option.some.inj hevaluated)
      obtain ⟨o, rfl, ho⟩ := List.map_eq_singleton_iff.mp hnames
      obtain ⟨shared, e, declared, hshared, horder, hdeclared, -⟩ :=
        ClassDeclaration.documented_arguments_merged hrun
      obtain rfl := List.perm_singleton.mp horder.perm.symm
      have hmethods : listing.methods = [get] := rfl
      rw [hmethods] at hdeclared
      obtain ⟨⟨-, hmerges⟩, -⟩ := List.forall₂_cons.mp hdeclared
      refine ⟨o, d', rfl, hlost, ho, ⟨shared, e, hshared, hmerges listingDoc rfl⟩, ?_⟩
      rw [Method.unlisted, ho]
      decide

end MergedArgumentsWitness

end ServiceGen

import ServiceGen.Schema.Enumeration

/-!
What becomes of the enumerations of a set when more are inserted.  An enumeration keeps its place,
its text and its members, and a name once it has one (`EnumSet.Grows`); what has been inserted is
found again in a place where it would change nothing (`EnumSet.Settled`), so that inserting the same
enumerations in the same order a second time leaves the set as it is.
-/

namespace ServiceGen

namespace ExportedEnum

/-- The names of the members in ascending order, if the type is an enumeration. -/
def memberNames? (e : ExportedEnum) : Option (List String) :=
  e.members?.map OrderedMap.keySet

theorem isSome_memberNames? (e : ExportedEnum) : e.memberNames?.isSome = e.type.isEnum := by
  rw [memberNames?, members?, DataType.isEnum]
  cases e.type.kind <;> rfl

/-- Two exports have the same text and the same names of members. -/
structure SameDefinition (e f : ExportedEnum) : Prop where
  description : e.description = f.description
  memberNames : e.memberNames? = f.memberNames?

namespace SameDefinition

variable {e f g : ExportedEnum}

theorem refl (e : ExportedEnum) : SameDefinition e e := ⟨rfl, rfl⟩

theorem symm (h : SameDefinition e f) : SameDefinition f e :=
  ⟨h.description.symm, h.memberNames.symm⟩

theorem trans (h : SameDefinition e f) (h' : SameDefinition f g) : SameDefinition e g :=
  ⟨h.description.trans h'.description, h.memberNames.trans h'.memberNames⟩

theorem isEnum_eq (h : SameDefinition e f) : e.type.isEnum = f.type.isEnum := by
  rw [← isSome_memberNames?, ← isSome_memberNames?, h.memberNames]

end SameDefinition

theorem sameContent_iff (e f : ExportedEnum) :
    e.sameContent f = true ↔ e.type.isEnum = true ∧ e.SameDefinition f := by
  have hparts : e.SameDefinition f ↔
      e.description = f.description ∧ e.memberNames? = f.memberNames? :=
    ⟨fun h => ⟨h.description, h.memberNames⟩, fun h => ⟨h.1, h.2⟩⟩
  rw [hparts, ← isSome_memberNames?, sameContent, memberNames?, memberNames?]
  cases e.members? <;> cases f.members? <;> simp

theorem sameName_iff (e f : ExportedEnum) :
    e.sameName f = true ↔ ∃ name, e.name? = some name ∧ f.name? = some name := by
  rw [sameName]
  cases e.name? with
  | none => simp
  | some a =>
      cases f.name? with
      | none => simp
      | some b => simp [eq_comm (a := a)]

theorem same_iff (e f : ExportedEnum) :
    e.same f = true ↔ e.sameName f = true ∨ e.sameContent f = true := by
  rw [same, Bool.or_eq_true]

/-- An enumeration is the same as itself. -/
theorem same_self {e : ExportedEnum} (he : e.type.isEnum = true) : e.same e = true :=
  (same_iff e e).mpr (.inr ((sameContent_iff e e).mpr ⟨he, .refl e⟩))

/-- `f` is what may have become of `e`: its definition has not changed, nor has a name that it
had. -/
structure Keeps (e f : ExportedEnum) : Prop where
  definition : e.SameDefinition f
  name : ∀ name, e.name? = some name → f.name? = some name

namespace Keeps

variable {e f g : ExportedEnum}

theorem refl (e : ExportedEnum) : Keeps e e := ⟨.refl e, fun _ h => h⟩

theorem trans (h : Keeps e f) (h' : Keeps f g) : Keeps e g :=
  ⟨h.definition.trans h'.definition, fun name hname => h'.name name (h.name name hname)⟩

theorem isSome_name? (h : Keeps e f) (hname : e.name?.isSome = true) :
    f.name?.isSome = true := by
  obtain ⟨name, hname⟩ := Option.isSome_iff_exists.mp hname
  rw [h.name name hname]
  rfl

/-- What was the same as another export stays so. -/
theorem same (h : Keeps e f) (hsame : e.same g = true) : f.same g = true := by
  rcases (same_iff e g).mp hsame with hname | hcontent
  · obtain ⟨name, he, hg⟩ := (sameName_iff e g).mp hname
    exact (same_iff f g).mpr (.inl ((sameName_iff f g).mpr ⟨name, h.name name he, hg⟩))
  · obtain ⟨henum, hdefinition⟩ := (sameContent_iff e g).mp hcontent
    refine (same_iff f g).mpr (.inr ((sameContent_iff f g).mpr ⟨?_, ?_⟩))
    · rw [← h.definition.isEnum_eq, henum]
    · exact h.definition.symm.trans hdefinition

end Keeps

/-- Merging replaces an export only by one with a name, and only if it had none itself. -/
theorem merge_cases (e f : ExportedEnum) :
    e.merge f = e ∨ e.name? = none ∧ f.name?.isSome = true ∧ e.merge f = f := by
  rw [merge]
  split
  · rename_i h
    rw [Bool.and_eq_true, Option.isNone_iff_eq_none] at h
    exact .inr ⟨h.1, h.2, rfl⟩
  · exact .inl rfl

theorem merge_eq_left {e f : ExportedEnum} (h : f.name?.isSome = true → e.name?.isSome = true) :
    e.merge f = e := by
  rcases merge_cases e f with heq | ⟨hnone, hsome, -⟩
  · exact heq
  · rw [hnone] at h
    cases h hsome

theorem isSome_name?_merge (e f : ExportedEnum) (h : f.name?.isSome = true) :
    (e.merge f).name?.isSome = true := by
  rw [merge]
  split
  · exact h
  · rename_i hkeep
    simpa [h, Option.isSome_iff_ne_none] using hkeep

/-- Of two exports of the same enumeration the merged one has the definition of the first, because
one that has no name is the same by its definition only. -/
theorem keeps_merge {e f : ExportedEnum} (h : e.same f = true) : e.Keeps (e.merge f) := by
  rcases merge_cases e f with heq | ⟨hnone, -, heq⟩
  · rw [heq]
    exact .refl e
  · rw [heq]
    rcases (same_iff e f).mp h with hname | hcontent
    · obtain ⟨name, he, -⟩ := (sameName_iff e f).mp hname
      rw [hnone] at he
      cases he
    · refine ⟨((sameContent_iff e f).mp hcontent).2, fun name hname => ?_⟩
      rw [hnone] at hname
      cases hname

end ExportedEnum

namespace EnumSet

open ExportedEnum

/-- The enumerations `fs` are the enumerations `es` in their places, each with its definition and
the name it had, and maybe more behind them. -/
inductive Grows : List ExportedEnum → List ExportedEnum → Prop
  | nil (fs : List ExportedEnum) : Grows [] fs
  | cons {e f : ExportedEnum} {es fs : List ExportedEnum} (hkeeps : e.Keeps f)
      (hrest : Grows es fs) : Grows (e :: es) (f :: fs)

namespace Grows

variable {es fs gs : List ExportedEnum}

theorem refl (es : List ExportedEnum) : Grows es es := by
  induction es with
  | nil => exact .nil []
  | cons e es ih => exact .cons (.refl _) ih

theorem trans (h : Grows es fs) (h' : Grows fs gs) : Grows es gs := by
  induction h generalizing gs with
  | nil => exact .nil gs
  | cons hkeeps _ ih =>
      cases h' with
      | cons hkeeps' hrest' => exact .cons (hkeeps.trans hkeeps') (ih hrest')

theorem exists_mem (h : Grows es fs) {e : ExportedEnum} (he : e ∈ es) : ∃ f ∈ fs, e.Keeps f := by
  induction h with
  | nil => cases he
  | @cons head image _ _ hkeeps _ ih =>
      rcases List.mem_cons.mp he with rfl | he
      · exact ⟨image, List.mem_cons_self, hkeeps⟩
      · obtain ⟨f, hf, hef⟩ := ih he
        exact ⟨f, List.mem_cons_of_mem image hf, hef⟩

end Grows

/-- Inserting an enumeration keeps those that are there. -/
theorem grows_insertInto (e : ExportedEnum) (es : List ExportedEnum) :
    Grows es (insertInto e es) := by
  induction es with
  | nil => exact .nil _
  | cons f rest ih =>
      rw [insertInto]
      split
      · rename_i hsame
        exact .cons (keeps_merge hsame) (.refl rest)
      · exact .cons (.refl _) ih

/-- One of the enumerations `es` is the same as `e`, with a name if `e` has one, and none before it
has the definition of `e`. -/
inductive Settled (e : ExportedEnum) : List ExportedEnum → Prop
  | here {f : ExportedEnum} {rest : List ExportedEnum} (hsame : f.same e = true)
      (hname : e.name?.isSome = true → f.name?.isSome = true) : Settled e (f :: rest)
  | there {f : ExportedEnum} {rest : List ExportedEnum} (hcontent : f.sameContent e = false)
      (hrest : Settled e rest) : Settled e (f :: rest)

theorem settled_insertInto {e : ExportedEnum} (he : e.type.isEnum = true)
    (es : List ExportedEnum) : Settled e (insertInto e es) := by
  induction es with
  | nil => exact .here (same_self he) id
  | cons f rest ih =>
      rw [insertInto]
      split
      · rename_i hsame
        exact .here ((keeps_merge hsame).same hsame) (isSome_name?_merge f e)
      · rename_i hsame
        rw [same, Bool.or_eq_true, not_or] at hsame
        exact .there (eq_false_of_ne_true hsame.2) ih

namespace Settled

variable {e : ExportedEnum} {es fs : List ExportedEnum}

/-- Definitions do not change, so nothing comes before that has the definition of `e`. -/
theorem of_grows (h : Settled e es) (hgrows : Grows es fs) : Settled e fs := by
  induction h generalizing fs with
  | here hsame hname =>
      cases hgrows with
      | cons hkeeps _ =>
          exact .here (hkeeps.same hsame) fun hsome => hkeeps.isSome_name? (hname hsome)
  | @there f _ hcontent _ ih =>
      cases hgrows with
      | @cons _ image _ _ hkeeps hrest =>
          refine .there (eq_false_of_ne_true fun himage => ?_) (ih hrest)
          obtain ⟨henum, hdefinition⟩ := (sameContent_iff image e).mp himage
          have hsame : f.sameContent e = true := (sameContent_iff f e).mpr
            ⟨hkeeps.definition.isEnum_eq.trans henum, hkeeps.definition.trans hdefinition⟩
          rw [hcontent] at hsame
          cases hsame

/-- What is settled changes nothing when it is inserted: the first enumeration that it is merged
into has a name, or it has none itself. -/
theorem insertInto_eq (h : Settled e es) : insertInto e es = es := by
  induction h with
  | here hsame hname => rw [insertInto, if_pos hsame, merge_eq_left hname]
  | @there f rest hcontent _ ih =>
      rw [insertInto]
      split
      · rename_i hsame
        rw [same, hcontent, Bool.or_false] at hsame
        obtain ⟨name, hf, -⟩ := (sameName_iff f e).mp hsame
        rw [merge_eq_left fun _ => by rw [hf]; rfl]
      · rw [ih]

theorem exists_same (h : Settled e es) : ∃ f ∈ es, f.same e = true := by
  induction h with
  | here hsame _ => exact ⟨_, List.mem_cons_self, hsame⟩
  | there _ _ ih =>
      obtain ⟨f, hf, hsame⟩ := ih
      exact ⟨f, List.mem_cons_of_mem _ hf, hsame⟩

end Settled

/-- What insertions of the enumerations `es` preserve holds after all of them. -/
theorem extend_induction {P : EnumSet → Prop} {s : EnumSet} {es : List ExportedEnum} (hs : P s)
    (hinsert : ∀ t, P t → ∀ e ∈ es, P (t.insert e)) : P (s.extend es) :=
  List.foldlRecOn es insert hs hinsert

/-- Inserting several enumerations keeps those that are there. -/
theorem grows_extend (s : EnumSet) (es : List ExportedEnum) :
    Grows s.enums (s.extend es).enums := by
  refine extend_induction (P := fun t => Grows s.enums t.enums) (.refl s.enums) ?_
  intro t ht e _
  exact ht.trans (grows_insertInto e t.enums)

/-- Each of several enumerations that were inserted is settled. -/
theorem settled_extend (s : EnumSet) {es : List ExportedEnum}
    (hes : ∀ e ∈ es, e.type.isEnum = true) : ∀ e ∈ es, Settled e (s.extend es).enums := by
  induction es generalizing s with
  | nil => simp
  | cons e es ih =>
      rw [List.forall_mem_cons] at hes
      rw [List.forall_mem_cons]
      refine ⟨?_, ih (s.insert e) hes.2⟩
      exact (settled_insertInto hes.1 s.enums).of_grows (grows_extend (s.insert e) es)

theorem extend_eq_self {s : EnumSet} {es : List ExportedEnum}
    (hes : ∀ e ∈ es, Settled e s.enums) : s.extend es = s := by
  induction es with
  | nil => rfl
  | cons e es ih =>
      rw [List.forall_mem_cons] at hes
      have hinsert : s.insert e = s := congrArg EnumSet.mk hes.1.insertInto_eq
      rw [extend, List.foldl_cons, hinsert]
      exact ih hes.2

/-- Inserting brings in nothing but the new enumeration. -/
theorem mem_insertInto {e f : ExportedEnum} {es : List ExportedEnum}
    (hf : f ∈ insertInto e es) : f = e ∨ f ∈ es := by
  induction es with
  | nil => exact .inl (List.mem_singleton.mp hf)
  | cons g rest ih =>
      rw [insertInto] at hf
      split at hf
      · rcases List.mem_cons.mp hf with rfl | hf
        · rcases merge_cases g e with heq | ⟨-, -, heq⟩
          · rw [heq]
            exact .inr List.mem_cons_self
          · exact .inl heq
        · exact .inr (List.mem_cons_of_mem g hf)
      · rcases List.mem_cons.mp hf with rfl | hf
        · exact .inr List.mem_cons_self
        · exact (ih hf).imp_right (List.mem_cons_of_mem g)

theorem mem_extend {s : EnumSet} {es : List ExportedEnum} {f : ExportedEnum}
    (hf : f ∈ (s.extend es).enums) : f ∈ s.enums ∨ f ∈ es := by
  have hall : ∀ g ∈ (s.extend es).enums, g ∈ s.enums ∨ g ∈ es := by
    refine extend_induction (P := fun t => ∀ g ∈ t.enums, g ∈ s.enums ∨ g ∈ es)
      (fun g hg => .inl hg) ?_
    intro t ht e he g hg
    rcases mem_insertInto hg with rfl | hg
    · exact .inr he
    · exact ht g hg
  exact hall f hf

section Pairwise

variable {R : ExportedEnum → ExportedEnum → Prop}

/-- What relates the enumerations of a set in their order goes on doing so, if a new one is related
to those that are not the same, and if merging changes nothing about it. -/
theorem pairwise_insertInto {e : ExportedEnum} {es : List ExportedEnum} (hes : es.Pairwise R)
    (hnew : ∀ f ∈ es, f.same e = false → R f e)
    (hmerge : ∀ f ∈ es, f.same e = true → ∀ g, R f g → R (f.merge e) g) :
    (insertInto e es).Pairwise R := by
  induction es with
  | nil => exact List.pairwise_singleton R e
  | cons f rest ih =>
      rw [List.pairwise_cons] at hes
      rw [List.forall_mem_cons] at hnew hmerge
      rw [insertInto]
      split
      · rename_i hsame
        exact List.pairwise_cons.mpr
          ⟨fun g hg => hmerge.1 hsame g (hes.1 g hg), hes.2⟩
      · rename_i hsame
        refine List.pairwise_cons.mpr ⟨fun g hg => ?_, ih hes.2 hnew.2 hmerge.2⟩
        rcases mem_insertInto hg with rfl | hg
        · exact hnew.1 (eq_false_of_ne_true hsame)
        · exact hes.1 g hg

end Pairwise

/-- No two enumerations of a set have the same definition. -/
theorem pairwise_definitions_extend {s : EnumSet} {es : List ExportedEnum}
    (hs : s.enums.Pairwise fun e f => ¬ e.SameDefinition f)
    (hes : ∀ e ∈ es, e.type.isEnum = true) :
    (s.extend es).enums.Pairwise fun e f => ¬ e.SameDefinition f := by
  refine extend_induction (P := fun t => t.enums.Pairwise _) hs ?_
  intro t ht e he
  apply pairwise_insertInto ht
  · intro f _ hsame hdefinition
    have hcontent : f.sameContent e = true :=
      (sameContent_iff f e).mpr ⟨hdefinition.isEnum_eq.trans (hes e he), hdefinition⟩
    rw [same, hcontent, Bool.or_true] at hsame
    cases hsame
  · intro f _ hsame g hg hdefinition
    exact hg ((keeps_merge hsame).definition.trans hdefinition)

/-- Where every enumeration has a name, no two enumerations of a set have the same one. -/
theorem pairwise_names_extend {s : EnumSet} {es : List ExportedEnum}
    (hs : s.enums.Pairwise fun e f => e.sameName f = false)
    (hnamed : ∀ e ∈ s.enums, e.name?.isSome = true) (hes : ∀ e ∈ es, e.name?.isSome = true) :
    (s.extend es).enums.Pairwise fun e f => e.sameName f = false := by
  refine (extend_induction (P := fun t => t.enums.Pairwise (fun e f => e.sameName f = false) ∧
    ∀ e ∈ t.enums, e.name?.isSome = true) ⟨hs, hnamed⟩ ?_).1
  intro t ht e he
  obtain ⟨hpairwise, hnamed⟩ := ht
  refine ⟨pairwise_insertInto hpairwise ?_ ?_, ?_⟩
  · intro f _ hsame
    rw [same, Bool.or_eq_false_iff] at hsame
    exact hsame.1
  · intro f hf _ g hg
    rw [merge_eq_left fun _ => hnamed f hf]
    exact hg
  · intro f hf
    rcases mem_insertInto hf with rfl | hf
    · exact hes f he
    · exact hnamed f hf

/-- A clash is one of two enumerations that have its name, with what relates these. -/
theorem exists_of_clashIn? {R : ExportedEnum → ExportedEnum → Prop} {clash : NameClash}
    {seen es : List ExportedEnum} (hclash : clashIn? seen es = some clash) (hes : es.Pairwise R)
    (hseen : ∀ e ∈ seen, ∀ f ∈ es, R e f) :
    ∃ e f, (e ∈ seen ∨ e ∈ es) ∧ f ∈ es ∧ R e f ∧ e.name? = some clash.name ∧
      f.name? = some clash.name ∧ clash.first = e.module ∧ clash.second = f.module := by
  induction es generalizing seen with
  | nil => cases hclash
  | cons g rest ih =>
      rw [List.pairwise_cons] at hes
      rw [clashIn?] at hclash
      split at hclash
      · rename_i name first hname hfind
        obtain rfl := Option.some.inj hclash
        have hfirst := List.mem_of_find?_eq_some hfind
        have hsame := List.find?_some hfind
        obtain ⟨shared, he, hg⟩ := (sameName_iff first g).mp hsame
        obtain rfl : name = shared := Option.some.inj (hname.symm.trans hg)
        exact ⟨first, g, .inl hfirst, List.mem_cons_self, hseen first hfirst g List.mem_cons_self,
          he, hg, rfl, rfl⟩
      · have hlater : ∀ e ∈ g :: seen, ∀ f ∈ rest, R e f := by
          rw [List.forall_mem_cons]
          exact ⟨hes.1, fun e he f hf => hseen e he f (List.mem_cons_of_mem g hf)⟩
        obtain ⟨e, f, he, hf, hrelated⟩ := ih hclash hes.2 hlater
        refine ⟨e, f, ?_, List.mem_cons_of_mem g hf, hrelated⟩
        rcases he with he | he
        · rcases List.mem_cons.mp he with rfl | he
          · exact .inr List.mem_cons_self
          · exact .inl he
        · exact .inr (List.mem_cons_of_mem g he)

theorem exists_of_clash? {R : ExportedEnum → ExportedEnum → Prop} {s : EnumSet}
    {clash : NameClash} (hclash : s.clash? = some clash) (hs : s.enums.Pairwise R) :
    ∃ e ∈ s.enums, ∃ f ∈ s.enums, R e f ∧ e.name? = some clash.name ∧
      f.name? = some clash.name ∧ clash.first = e.module ∧ clash.second = f.module := by
  obtain ⟨e, f, he, hf, hrelated⟩ := exists_of_clashIn? hclash hs (by simp)
  rcases he with hnone | he
  · cases hnone
  · exact ⟨e, he, f, hf, hrelated⟩

/-- Where no clash is found, no name was there before. -/
theorem pairwise_of_clashIn?_eq_none {seen es : List ExportedEnum}
    (hnone : clashIn? seen es = none) :
    (∀ e ∈ es, ∀ f ∈ seen, f.sameName e = false) ∧
      es.Pairwise fun e f => e.sameName f = false := by
  induction es generalizing seen with
  | nil => exact ⟨List.forall_mem_nil _, List.Pairwise.nil⟩
  | cons e rest ih =>
      rw [clashIn?] at hnone
      split at hnone
      · cases hnone
      · rename_i hclear
        obtain ⟨hlater, hrest⟩ := ih hnone
        have hfirst : ∀ f ∈ seen, f.sameName e = false := by
          intro f hf
          cases hsame : f.sameName e with
          | false => rfl
          | true =>
              obtain ⟨name, -, hname⟩ := (sameName_iff f e).mp hsame
              have hfound : (seen.find? (·.sameName e)).isSome = true :=
                List.find?_isSome.mpr ⟨f, hf, hsame⟩
              obtain ⟨first, hfirst⟩ := Option.isSome_iff_exists.mp hfound
              exact absurd hfirst (hclear name first hname)
        refine ⟨List.forall_mem_cons.mpr ⟨hfirst, fun g hg f hf => ?_⟩,
          List.pairwise_cons.mpr ⟨fun g hg => hlater g hg e List.mem_cons_self, hrest⟩⟩
        exact hlater g hg f (List.mem_cons_of_mem e hf)

/-- There is no clash exactly when the names that are there are distinct. -/
theorem clash?_eq_none_iff {s : EnumSet} :
    s.clash? = none ↔ (s.enums.filterMap (·.name?)).Nodup := by
  have hpairwise : (s.enums.filterMap (·.name?)).Nodup ↔
      s.enums.Pairwise fun e f => e.sameName f = false := by
    rw [List.Nodup, List.pairwise_filterMap]
    refine List.Pairwise.iff fun e f => ?_
    rw [← Bool.not_eq_true, sameName_iff]
    constructor
    · rintro hdiffer ⟨name, he, hf⟩
      exact hdiffer name he name hf rfl
    · rintro hdiffer name he _ hf rfl
      exact hdiffer ⟨name, he, hf⟩
  rw [hpairwise]
  constructor
  · exact fun hnone => (pairwise_of_clashIn?_eq_none hnone).2
  · intro hs
    cases hclash : s.clash? with
    | none => rfl
    | some clash =>
        obtain ⟨e, -, f, -, hdiffer, he, hf, -⟩ := exists_of_clash? hclash hs
        rw [(sameName_iff e f).mpr ⟨clash.name, he, hf⟩] at hdiffer
        cases hdiffer

/-- Enumerations of the same name have the same definition. -/
def NamesAgree (P : ExportedEnum → Prop) : Prop :=
  ∀ e f name, P e → P f → e.name? = some name → f.name? = some name → e.SameDefinition f

section Clashes

variable {es : List ExportedEnum}

theorem mem_of_mem_extend_empty {f : ExportedEnum} (hf : f ∈ (empty.extend es).enums) :
    f ∈ es := by
  rcases mem_extend hf with hnone | hf
  · cases hnone
  · exact hf

/-- A clash in a set is one of two enumerations that were inserted, and these differ. -/
theorem exists_differing_of_clash? {clash : NameClash} (hes : ∀ e ∈ es, e.type.isEnum = true)
    (hclash : (empty.extend es).clash? = some clash) :
    ∃ e ∈ es, ∃ f ∈ es, ¬ e.SameDefinition f ∧ e.name? = some clash.name ∧
      f.name? = some clash.name ∧ clash.first = e.module ∧ clash.second = f.module := by
  obtain ⟨e, he, f, hf, hrest⟩ :=
    exists_of_clash? hclash (pairwise_definitions_extend List.Pairwise.nil hes)
  exact ⟨e, mem_of_mem_extend_empty he, f, mem_of_mem_extend_empty hf, hrest⟩

theorem clash?_eq_none_of_namesAgree (hes : ∀ e ∈ es, e.type.isEnum = true)
    (hagree : NamesAgree (· ∈ es)) : (empty.extend es).clash? = none := by
  cases hclash : (empty.extend es).clash? with
  | none => rfl
  | some clash =>
      obtain ⟨e, he, f, hf, hdiffer, hename, hfname, -⟩ := exists_differing_of_clash? hes hclash
      exact absurd (hagree e f clash.name he hf hename hfname) hdiffer

/-- Where names agree, every enumeration that was inserted has its definition in the set. -/
theorem exists_definition_of_namesAgree (hes : ∀ e ∈ es, e.type.isEnum = true)
    (hagree : NamesAgree (· ∈ es)) :
    ∀ e ∈ es, ∃ f ∈ (empty.extend es).enums, f.SameDefinition e := by
  intro e he
  obtain ⟨f, hf, hsame⟩ := (settled_extend empty hes e he).exists_same
  refine ⟨f, hf, ?_⟩
  rcases (same_iff f e).mp hsame with hname | hcontent
  · obtain ⟨name, hfname, hename⟩ := (sameName_iff f e).mp hname
    exact hagree f e name (mem_of_mem_extend_empty hf) he hfname hename
  · exact ((sameContent_iff f e).mp hcontent).2

/-- Where every enumeration has a name there is no clash, whatever the definitions. -/
theorem clash?_eq_none_of_named (hnamed : ∀ e ∈ es, e.name?.isSome = true) :
    (empty.extend es).clash? = none := by
  cases hclash : (empty.extend es).clash? with
  | none => rfl
  | some clash =>
      obtain ⟨e, -, f, -, hdiffer, hename, hfname, -⟩ := exists_of_clash? hclash
        (pairwise_names_extend (s := empty) List.Pairwise.nil (List.forall_mem_nil _) hnamed)
      rw [(sameName_iff e f).mpr ⟨clash.name, hename, hfname⟩] at hdiffer
      cases hdiffer

end Clashes

/-- Inserting more enumerations into a set keeps each one: those of the set stay in their places,
with their definitions and the names they had, and each of them and each that was inserted is the
same as one of the result.  Inserting them once more in the same order changes nothing. -/
theorem extend_keeps_and_settles {inserted more : List ExportedEnum}
    (hinserted : ∀ e ∈ inserted, e.type.isEnum = true) (hmore : ∀ e ∈ more, e.type.isEnum = true) :
    (∀ e ∈ (empty.extend inserted).enums ++ more,
        ∃ f ∈ ((empty.extend inserted).extend more).enums, f.same e = true) ∧
      Grows (empty.extend inserted).enums ((empty.extend inserted).extend more).enums ∧
        ((empty.extend inserted).extend more).extend more =
          (empty.extend inserted).extend more := by
  have hgrows := grows_extend (empty.extend inserted) more
  have hsettled := settled_extend (empty.extend inserted) hmore
  refine ⟨fun e he => ?_, hgrows, extend_eq_self hsettled⟩
  rcases List.mem_append.mp he with he | he
  · obtain ⟨f, hf, hkeeps⟩ := hgrows.exists_mem he
    exact ⟨f, hf, hkeeps.same (same_self (hinserted e (mem_of_mem_extend_empty he)))⟩
  · exact (hsettled e he).exists_same

end EnumSet

namespace EnumSetWitness

def enumeration (name : Option String) (description : String) (members : List String) : DataType :=
  { DataType.enumeration name (.scalar .int) ⟨members.map (·, .scalar .int)⟩ with description }

/-- The states of a job without a name, and a priority. -/
def found : List ExportedEnum :=
  [.ofType "" "" (enumeration none "state of a job" ["OK", "FAIL"]),
    .ofType "Priority" "app.enums" (enumeration none "" ["LOW"])]

/-- The states with the name of the priority, which they take; and another priority. -/
def more : List ExportedEnum :=
  [.ofType "Priority" "app.jobs" (enumeration none "state of a job" ["FAIL", "OK"]),
    .ofType "" "" (enumeration (some "Priority") "how soon" ["NOW"]),
    .ofType "" "" (enumeration none "" ["LOW"])]

theorem job_states_settle :
    (∀ e ∈ found, e.type.isEnum = true) ∧ (∀ e ∈ more, e.type.isEnum = true) ∧
      (∀ e ∈ (EnumSet.empty.extend found).enums ++ more,
        ∃ f ∈ ((EnumSet.empty.extend found).extend more).enums, f.same e = true) ∧
      EnumSet.Grows (EnumSet.empty.extend found).enums
          ((EnumSet.empty.extend found).extend more).enums ∧
        ((EnumSet.empty.extend found).extend more).extend more =
          (EnumSet.empty.extend found).extend more := by
  have hfound : ∀ e ∈ found, e.type.isEnum = true := by decide
  have hmore : ∀ e ∈ more, e.type.isEnum = true := by decide
  exact ⟨hfound, hmore, EnumSet.extend_keeps_and_settles hfound hmore⟩

end EnumSetWitness

end ServiceGen

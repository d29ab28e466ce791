import ServiceGen.Proofs.Declaration.MergedArguments

/-!
The default of a parameter that is described by attributes.  It is read twice: on the way to the
type, where `default_value` counts before `default`, and on the way to the argument, which only
looks for `default`.  The main statement, `Method.described_default_kept_iff`, says when both find
the same.
-/

namespace ServiceGen

open Counted

theorem NoteSlot.default_fill (slot : NoteSlot) (value : Json) (t : DataType) :
    (slot.fill value t).default = if slot = .default then some value else t.default := by
  cases slot <;> rfl

namespace NoteSet

/-- Steps that give a type the default `d` where they come to that note, and keep it elsewhere. -/
theorem default_foldl {f : DataType → NoteSlot → DataType} {d : Option Json}
    (hf : ∀ t slot, (f t slot).default = if slot = .default then d.or t.default else t.default)
    (slots : List NoteSlot) :
    ∀ t, (slots.foldl f t).default =
      if .default ∈ slots then d.or t.default else t.default := by
  induction slots with
  | nil => simp
  | cons slot rest ih =>
      intro t
      rw [List.foldl_cons, ih, hf]
      by_cases hslot : slot = .default
      · cases d <;> simp [hslot]
      · have hne : ¬ NoteSlot.default = slot := fun heq => hslot heq.symm
        simp [hslot, hne]

/-- The default comes from the attributes, for the types that can have one. -/
theorem default_apply {set : NoteSet} (hset : .default ∈ set.slots)
    (attributes : Option Attributes) (t : DataType) :
    (set.apply attributes t).default =
      (attributes.bind NoteSlot.default.value?).or t.default := by
  rw [apply, default_foldl (d := attributes.bind NoteSlot.default.value?), if_pos hset]
  intro t slot
  by_cases hslot : slot = .default
  · subst hslot
    cases attributes.bind NoteSlot.default.value? <;> simp [NoteSlot.default_fill]
  · cases attributes.bind slot.value? <;> simp [NoteSlot.default_fill, hslot]

theorem default_mem_ofWord {word : String} (hword : word ≠ "list") :
    .default ∈ (ofWord word).slots := by
  unfold ofWord
  split
  · decide
  · decide
  · decide
  · decide
  · exact absurd rfl hword
  · decide

end NoteSet

theorem NativeType.default_mem_notes (type : NativeType) : .default ∈ type.notes.slots := by
  cases type <;> decide

namespace TypeHint

/-- The hint is a word, but not that for lists, or a native type. -/
def Simple : TypeHint → Prop
  | literal word => word ≠ "list"
  | native _ => True
  | field _ | other _ => False

theorem default_override (attributes : Option Attributes) (t : DataType) :
    (override attributes t).default = t.default := by
  rw [override]
  split
  · split <;> rfl
  · rfl

/-- A simple hint loses nothing, and its type has the first default among the attributes. -/
theorem adapt_of_simple {hint : TypeHint} (hsimple : hint.Simple)
    (attributes : Option Attributes) :
    (adapt attributes hint).1.isVoid = false ∧ (adapt attributes hint).2 = 0 ∧
      (adapt attributes hint).1.default = attributes.bind NoteSlot.default.value? := by
  have hscalar : ∀ (set : NoteSet) (kind : Scalar), .default ∈ set.slots →
      (override attributes (set.apply attributes (.scalar kind))).isVoid = false ∧
        (override attributes (set.apply attributes (.scalar kind))).default =
          attributes.bind NoteSlot.default.value? := by
    intro set kind hset
    have hkind : (override attributes (set.apply attributes (.scalar kind))).kind =
        .scalar kind := (kind_override ..).trans (set.kind_apply ..)
    refine ⟨by rw [DataType.isVoid, hkind], ?_⟩
    rw [default_override, NoteSet.default_apply hset]
    exact Option.or_none
  cases hint with
  | literal word =>
      obtain ⟨hvoid, hdefault⟩ := hscalar _ _ (NoteSet.default_mem_ofWord hsimple)
      rw [adapt]
      exact ⟨hvoid, rfl, hdefault⟩
  | native type =>
      obtain ⟨hvoid, hdefault⟩ := hscalar _ type.scalar type.default_mem_notes
      rw [adapt]
      exact ⟨hvoid, rfl, hdefault⟩
  | field f => exact hsimple.elim
  | other value => exact hsimple.elim

end TypeHint

/-- The first default among attributes. -/
theorem NoteSlot.value?_default (a : Attributes) :
    NoteSlot.default.value? a = (a.present? "default_value").or (a.present? "default") := by
  simp only [value?, keys, List.findSome?_cons, List.findSome?_nil]
  cases a.present? "default_value" with
  | some value => rfl
  | none => cases a.present? "default" <;> rfl

/-- The documentation of a method describes a parameter in this way, among those that it takes or,
for `inBody`, among those that it expects. -/
def MemberDoc.Describes (doc : MemberDoc) (inBody : Bool) (name : String)
    (spec : ParameterSpec) : Prop :=
  if inBody then ∃ specs ∈ doc.expect, (name, spec) ∈ specs.entries
  else (name, spec) ∈ doc.params.entries

namespace Method

/-- The argument for a parameter that is described by attributes and has a simple hint. -/
theorem attributesArgument_of_simple (m : Method) (inBody : Bool) (name : String)
    {spec : Attributes} {hint : TypeHint} (hhint : spec.hint? = some hint)
    (hsimple : hint.Simple) :
    ∃ a : Argument, (m.attributesArgument inBody name spec).Gives a 0 ∧ a.name = name ∧
      a.default = spec.present? "default" ∧
      a.type.default = (spec.present? "default_value").or (spec.present? "default") := by
  obtain ⟨hvoid, hlosses, hdefault⟩ := TypeHint.adapt_of_simple hsimple (some spec)
  have hrecord := gives_record (TypeHint.adapt? (some spec) (some hint))
  rw [TypeHint.adapt?, hlosses] at hrecord
  have htype := hdefault.trans (NoteSlot.value?_default spec)
  refine ⟨{ Argument.ofType name (TypeHint.adapt (some spec) hint).1 with
      default := spec.present? "default"
      description := (spec.text? "description").getD ""
      source := if inBody then .body
        else if spec.location?.getD "params" == "params" then .params else .header },
    ?_, rfl, rfl, htype⟩
  rw [attributesArgument, hhint, TypeHint.adapt?, ← add_zero (0 : Degradations)]
  refine hrecord.bind ?_
  cases inBody <;> simp only [hvoid] <;> exact gives_pure _

/-- Every description by attributes gives one of the arguments. -/
theorem mem_describedArguments {m : Method} {inBody : Bool} {specs : OrderedMap ParameterSpec}
    {arguments : List Argument} {e : Degradations}
    (h : (m.describedArguments inBody specs).Gives arguments e) {name : String}
    {spec : Attributes} (hspec : (name, .attributes spec) ∈ specs.entries) {a : Argument}
    {e' : Degradations} (ha : (m.attributesArgument inBody name spec).Gives a e') :
    a ∈ arguments := by
  have hsome : (some <$> m.attributesArgument inBody name spec).Gives (some a) (e' + 0) := by
    rw [map_eq_pure_bind]
    exact ha.bind (gives_pure (some a))
  refine mem_of_gives_filterMap (fun entry => ?_) h hspec hsome
  obtain ⟨name, f | a⟩ := entry
  · exact steady_fieldArgument? inBody name f
  · exact (steady_attributesArgument m inBody name a).map some

theorem mem_documentedArguments {m : Method} {doc : MemberDoc} {shared own : List Argument}
    {e : Degradations} (h : (m.documentedArguments doc shared).Gives own e) {inBody : Bool}
    {name : String} {spec : Attributes} (hspec : doc.Describes inBody name (.attributes spec))
    {a : Argument} {e' : Degradations}
    (ha : (m.attributesArgument inBody name spec).Gives a e') : a ∈ own := by
  obtain ⟨-, params, _, expected, _, hparams, hexpected, hsignature, -⟩ :=
    documentedArguments_gives_iff.mp h
  obtain ⟨taken, -, rfl, -⟩ := signatureArguments_gives hsignature
  refine List.mem_append_left _ (List.mem_append.mpr ?_)
  cases inBody with
  | false => exact .inl (mem_describedArguments hparams hspec ha)
  | true =>
      obtain ⟨specs, hspecs, hentry⟩ := hspec
      obtain ⟨r, hr, hgives⟩ := exists_right_of_forall₂ hexpected hspecs
      have hmem : a ∈ r.1 := mem_describedArguments hgives hentry ha
      exact .inr (List.mem_flatten.mpr ⟨_, List.mem_map_of_mem hr, hmem⟩)

/-- A parameter that is described by attributes with a simple hint always gives an argument, and
that is among those of its method.  Its type has the first of the defaults `default_value` and
`default` that is not `null`, but the argument itself only has `default`; so the argument, also as a
field, keeps the default of its type exactly when there is no `default_value`, or `default` says the
same. -/
theorem described_default_kept_iff (m : Method) (inBody : Bool) (name : String)
    {spec : Attributes} {hint : TypeHint} (hhint : spec.hint? = some hint)
    (hsimple : hint.Simple) :
    ∃ a : Argument, (∀ d, m.attributesArgument inBody name spec d = .ok (a, d)) ∧
      a.name = name ∧
      a.type.default = (spec.present? "default_value").or (spec.present? "default") ∧
      (a.default = a.type.default ∧ a.field.default = a.type.default ↔
        spec.present? "default_value" = none ∨
          spec.present? "default_value" = spec.present? "default") ∧
      ∀ doc shared own d d', doc.Describes inBody name (.attributes spec) →
        m.documentedArguments doc shared d = .ok (own, d') → a ∈ own := by
  obtain ⟨a, hgives, hname, hdefault, htype⟩ :=
    m.attributesArgument_of_simple inBody name hhint hsimple
  refine ⟨a, fun d => (hgives d).trans (by rw [add_zero]), hname, htype, ?_,
    fun doc shared own d d' hspec hown => ?_⟩
  · have hfield : a.field.default = a.default := rfl
    rw [hfield, and_self, htype, hdefault]
    cases spec.present? "default_value" with
    | none => simp
    | some value => simp [eq_comm]
  · obtain ⟨e, hgiven, -⟩ := (steady_documentedArguments m doc shared).eq_ok_iff.mp hown
    exact mem_documentedArguments hgiven hspec hgives

end Method

namespace ParameterDefaultsWitness

/-- A whole number with a default under one name, or under both. -/
def limit (defaults : List (String × Json)) : Attributes :=
  ⟨("type", .str "int") :: defaults⟩

/-- The documentation of a method that expects such a number. -/
def searchDoc (defaults : List (String × Json)) : MemberDoc where
  params := .empty
  expect := [⟨[("limit", .attributes (limit defaults))]⟩]
  responses := .empty

def member (defaults : List (String × Json)) : Member where
  kind := .function
  doc := none
  plainArguments := none
  plainResult := none
  memberDoc := some (searchDoc defaults)
  signature := .empty

def shop (defaults : List (String × Json)) : ClassDeclaration where
  name := "Shop"
  module := "app.shop"
  capability := .serviceBase
  implementationName := none
  classDoc := none
  webNamespace := none
  members := ⟨[("search", member defaults)]⟩

def search (defaults : List (String × Json)) : Method :=
  ⟨shop defaults, "search", member defaults⟩

/-- Both names say the same. -/
def agreeing : List (String × Json) :=
  [("default", .num (.int 10)), ("default_value", .num (.int 10))]

theorem agreeing_default_kept :
    (limit agreeing).hint? = some (.literal "int") ∧ (TypeHint.literal "int").Simple ∧
      ∃ own d', (search agreeing).documentedArguments (searchDoc agreeing) [] .none =
          .ok (own, d') ∧
        ∃ a ∈ own, a.name = "limit" ∧ a.default = some (.num (.int 10)) ∧
          a.field.default = a.type.default := by
  have hsimple : (TypeHint.literal "int").Simple := by simp [TypeHint.Simple]
  have hhint : (limit agreeing).hint? = some (.literal "int") := rfl
  obtain ⟨a, hok, hname, htype, hkept, hmem⟩ :=
    Method.described_default_kept_iff (search agreeing) true "limit" hhint hsimple
  obtain ⟨hdefault, hfield⟩ := hkept.mpr (.inr rfl)
  have hdescribes : (searchDoc agreeing).Describes true "limit" (.attributes (limit agreeing)) :=
    ⟨_, List.mem_singleton_self _, List.mem_singleton_self _⟩
  refine ⟨rfl, hsimple, _, _, rfl, a, hmem _ [] _ .none _ hdescribes rfl, hname, ?_, hfield⟩
  rw [hdefault, htype]
  rfl

/-- Only the name that counts first for the type has a default. -/
def preferred : List (String × Json) :=
  [("default_value", .num (.int 10))]

/-- A default under the name that counts first for the type is lost on the way to the argument. -/
theorem not_all_defaults_kept :
    ¬ ∀ (c : ClassDeclaration) (m : Method) (doc : MemberDoc) (inBody : Bool) (name : String)
        (spec : Attributes) (hint : TypeHint) (d d' : Degradations) (a : Argument), m ∈ c.methods →
      m.member.memberDoc = some doc → doc.Describes inBody name (.attributes spec) →
        spec.hint? = some hint → hint.Simple →
          m.attributesArgument inBody name spec d = .ok (a, d') →
            a.default = a.type.default ∧ a.field.default = a.type.default := by
  intro hall
  have hmethods : (shop preferred).methods = [search preferred] := rfl
  have hmem : search preferred ∈ (shop preferred).methods :=
    hmethods ▸ List.mem_singleton_self _
  have hdescribes : (searchDoc preferred).Describes true "limit" (.attributes (limit preferred)) :=
    ⟨_, List.mem_singleton_self _, List.mem_singleton_self _⟩
  have hsimple : (TypeHint.literal "int").Simple := by simp [TypeHint.Simple]
  have hkept := hall _ _ _ true "limit" _ _ .none .none _ hmem rfl hdescribes rfl hsimple rfl
  cases hkept.1

end ParameterDefaultsWitness

end ServiceGen

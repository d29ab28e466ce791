import ServiceGen.Proofs.Declaration.Methods
import ServiceGen.Proofs.SortedMap

/-!
The answers of a documented method.  They are visited in the order of their texts, and the ordinary
answer is chosen anew after each one; the operation that comes out depends on the codes alone, but
that of several texts for one code the last one counts.  The main statement is
`Method.documented_answers`.
-/

namespace ServiceGen

open Counted SortedMap

namespace Response

/-- The response has the type `t`, whatever is lost on the way to it. -/
def Answers (r : Response) (t : DataType) : Prop :=
  ∃ e, r.type.Gives t e

theorem Answers.unique {r : Response} {t u : DataType} (ht : r.Answers t) (hu : r.Answers u) :
    t = u := by
  obtain ⟨e, ht⟩ := ht
  obtain ⟨e', hu⟩ := hu
  exact (ht.unique hu).1

/-- Whatever a response says, it has a type. -/
theorem exists_gives_type (r : Response) : ∃ t e, r.type.Gives t e := by
  rcases r.steady_type with hgives | ⟨failure, hfails⟩
  · exact hgives
  · have hnever : r.type.FailsWith fun _ => False := by
      rw [Response.type]
      split
      · exact failsWith_pure _
      · refine (failsWith_mapM (fun entry => ?_) _).bind fun fields => failsWith_pure _
        exact (failsWith_record _).bind fun t => failsWith_pure _
      · exact failsWith_record _
    exact (hnever 0 failure (hfails 0)).elim

end Response

/-- A text stands for a code exactly when it is made of digits, perhaps with a plus sign in front,
and their value is the code and below `2 ^ 16`. -/
theorem statusCode?_eq_some_iff {text : String} {code : Nat} :
    statusCode? text = some code ↔ ∃ digits : List Char, digits ≠ [] ∧
      (∀ c ∈ digits, c.isDigit = true) ∧
      (text.toList = digits ∨ text.toList = '+' :: digits) ∧
      Numeral.digitsValue digits = code ∧ code < 2 ^ 16 := by
  have hread : ∀ digits : List Char,
      (if digits.isEmpty || !digits.all Char.isDigit then none
        else if Numeral.digitsValue digits < Nat.pow 2 16 then some (Numeral.digitsValue digits)
        else none) = some code ↔
      digits ≠ [] ∧ (∀ c ∈ digits, c.isDigit = true) ∧
        Numeral.digitsValue digits = code ∧ code < 2 ^ 16 := by
    intro digits
    have hpow : Nat.pow 2 16 = 2 ^ 16 := rfl
    rw [hpow]
    by_cases hnil : digits = []
    · simp [hnil]
    · grind
  rw [statusCode?]
  split
  · rename_i rest hplus
    rw [hread]
    constructor
    · rintro ⟨hne, hdigits, hvalue, hlt⟩
      exact ⟨rest, hne, hdigits, .inr hplus, hvalue, hlt⟩
    · rintro ⟨digits, hne, hdigits, htext | htext, hvalue, hlt⟩
      · -- a plus sign is no digit
        rw [hplus] at htext
        exact absurd (hdigits '+' (htext ▸ List.mem_cons_self)) (by decide)
      · obtain rfl := (List.cons.inj (hplus.symm.trans htext)).2
        exact ⟨hne, hdigits, hvalue, hlt⟩
  · rename_i hplus
    rw [hread]
    constructor
    · rintro ⟨hne, hdigits, hvalue, hlt⟩
      exact ⟨text.toList, hne, hdigits, .inl rfl, hvalue, hlt⟩
    · rintro ⟨digits, hne, hdigits, htext | htext, hvalue, hlt⟩
      · rw [htext]
        exact ⟨hne, hdigits, hvalue, hlt⟩
      · exact absurd htext (hplus digits)

namespace Operation

/-- The code stands for success. -/
def IsSuccess (code : Nat) : Prop :=
  200 ≤ code ∧ code < 300

/-- Of the codes that have the property and an answer, `code` is the lowest, and `t` is its
answer. -/
structure IsLowest (results : SortedMap Nat DataType) (P : Nat → Prop) (code : Nat)
    (t : DataType) : Prop where
  property : P code
  answer : results.get? code = some t
  least : ∀ other u, P other → results.get? other = some u → code ≤ other

/-- Among several answers the ordinary one is that of the lowest code for success; where there is
none, that of the lowest code; and void where there are no answers. -/
inductive Ordinary (results : SortedMap Nat DataType) (t : DataType) : Prop
  | success {code : Nat} (hlowest : IsLowest results IsSuccess code t)
  | failure {code : Nat} (hnone : ∀ other u, results.get? other = some u → ¬ IsSuccess other)
      (hlowest : IsLowest results (fun _ => True) code t)
  | nothing (hnone : ∀ code, results.get? code = none) (hvoid : t = .void)

section Primary

variable {results : SortedMap Nat DataType}

/-- In ascending order the first code with a property is the lowest one. -/
theorem isLowest_of_find? (hresults : Ascending results.entries) {P : Nat → Prop}
    {keep : Nat × DataType → Bool} (hkeep : ∀ entry, keep entry = true ↔ P entry.1)
    {entry : Nat × DataType} (hfind : results.entries.find? keep = some entry) :
    IsLowest results P entry.1 entry.2 := by
  obtain ⟨hentry, before, after, hentries, hbefore⟩ := List.find?_eq_some_iff_append.mp hfind
  have hmem : (entry.1, entry.2) ∈ results.entries := List.mem_of_find?_eq_some hfind
  refine ⟨(hkeep entry).mp hentry, (mem_entries_iff hresults).mp hmem,
    fun other u hother hget => ?_⟩
  have hin := (mem_entries_iff hresults).mpr hget
  rw [hentries, List.mem_append, List.mem_cons] at hin
  rcases hin with hin | rfl | hin
  · have hskipped := hbefore _ hin
    rw [(hkeep (other, u)).mpr hother] at hskipped
    cases hskipped
  · exact Nat.le_refl _
  · rw [hentries] at hresults
    have hlater := (List.pairwise_append.mp hresults).2.1
    exact Nat.le_of_lt (Nat.compare_eq_lt.mp ((List.pairwise_cons.mp hlater).1 _ hin))

theorem ordinary_primary? (hresults : Ascending results.entries) :
    Ordinary results ((primary? results).getD .void) := by
  have hsuccess : ∀ entry : Nat × DataType,
      (decide (200 ≤ entry.1) && decide (entry.1 < 300)) = true ↔ IsSuccess entry.1 := by
    simp [IsSuccess]
  rw [primary?]
  split
  · rename_i code t hfind
    exact .success (isLowest_of_find? hresults hsuccess hfind)
  · rename_i hnone
    cases hentries : results.entries with
    | nil =>
        rw [SortedMap.values, hentries]
        exact .nothing (fun code => by rw [get?, hentries]; rfl) rfl
    | cons entry rest =>
        have hfirst : results.entries.find? (fun _ => true) = some entry := by rw [hentries]; rfl
        rw [SortedMap.values, hentries]
        refine .failure (fun other u hget hother => ?_)
          (isLowest_of_find? hresults (by simp) hfirst)
        have hmem := (mem_entries_iff hresults).mpr hget
        exact List.find?_eq_none.mp hnone _ hmem ((hsuccess (other, u)).mpr hother)

/-- Where there is an answer there is an ordinary one. -/
theorem primary?_getD_eq {code : Nat} {t : DataType} (hget : results.get? code = some t)
    (u v : DataType) : (primary? results).getD u = (primary? results).getD v := by
  rw [primary?]
  split
  · rfl
  · cases hentries : results.entries with
    | nil =>
        rw [get?, hentries] at hget
        cases hget
    | cons entry rest =>
        rw [SortedMap.values, hentries]
        rfl

end Primary

/-- The answers of an operation are in the order of their codes, and its result is the one that is
chosen from them. -/
structure Answered (o : Operation) : Prop where
  ascending : Ascending o.results.entries
  result : o.result = (primary? o.results).getD .void

theorem Answered.get?_setResult {o : Operation} (h : o.Answered) (code other : Nat)
    (t : DataType) : (o.setResult code t).results.get? other =
      if other = code then some t else o.results.get? other :=
  get?_alter h.ascending code other _

/-- One more answer leaves the choice right. -/
theorem Answered.setResult {o : Operation} (h : o.Answered) (code : Nat) (t : DataType) :
    (o.setResult code t).Answered where
  ascending := h.ascending.insert code t
  result := by
    have hget := h.get?_setResult code code t
    rw [if_pos rfl] at hget
    exact primary?_getD_eq hget _ _

end Operation

namespace Method

/-- The last of the responses whose texts stand for the code has the type `t`. -/
inductive LastAnswer (code : Nat) (t : DataType) : List (String × Response) → Prop
  | here {key : String} {r : Response} {rest : List (String × Response)}
      (hcode : statusCode? key = some code)
      (hlast : ∀ entry ∈ rest, statusCode? entry.1 ≠ some code) (hanswers : r.Answers t) :
      LastAnswer code t ((key, r) :: rest)
  | later {entry : String × Response} {rest : List (String × Response)}
      (h : LastAnswer code t rest) : LastAnswer code t (entry :: rest)

theorem LastAnswer.exists_code {code : Nat} {t : DataType} {responses : List (String × Response)}
    (h : LastAnswer code t responses) : ∃ entry ∈ responses, statusCode? entry.1 = some code := by
  induction h with
  | here hcode => exact ⟨_, List.mem_cons_self, hcode⟩
  | later _ ih =>
      obtain ⟨entry, hentry, hcode⟩ := ih
      exact ⟨entry, List.mem_cons_of_mem _ hentry, hcode⟩

theorem lastAnswer_cons_iff {code : Nat} {t : DataType} {key : String} {r : Response}
    {rest : List (String × Response)} :
    LastAnswer code t ((key, r) :: rest) ↔ LastAnswer code t rest ∨
      statusCode? key = some code ∧ (∀ entry ∈ rest, statusCode? entry.1 ≠ some code) ∧
        r.Answers t := by
  constructor
  · intro h
    cases h with
    | here hcode hlast hanswers => exact .inr ⟨hcode, hlast, hanswers⟩
    | later h => exact .inl h
  · rintro (h | ⟨hcode, hlast, hanswers⟩)
    · exact .later h
    · exact .here hcode hlast hanswers

/-- The responses can always be visited.  After them the operation has under each code the last
answer for it, and under the others what it had. -/
theorem exists_withResponses (responses : List (String × Response)) :
    ∀ o : Operation, o.Answered → ∃ o' e, (withResponses o responses).Gives o' e ∧ o'.Answered ∧
      ∀ code t, o'.results.get? code = some t ↔ LastAnswer code t responses ∨
        (∀ entry ∈ responses, statusCode? entry.1 ≠ some code) ∧
          o.results.get? code = some t := by
  induction responses with
  | nil =>
      intro o ho
      refine ⟨o, 0, gives_pure o, ho, fun code t => ⟨fun h => .inr ⟨by simp, h⟩, ?_⟩⟩
      rintro (h | h)
      · cases h
      · exact h.2
  | cons entry rest ih =>
      obtain ⟨key, r⟩ := entry
      intro o ho
      cases hkey : statusCode? key with
      | none =>
          obtain ⟨o', e, hgives, hanswered, hget⟩ := ih o ho
          refine ⟨o', e, by simpa only [withResponses, hkey] using hgives, hanswered, ?_⟩
          intro code t
          rw [hget, lastAnswer_cons_iff, List.forall_mem_cons]
          simp [hkey]
      | some status =>
          obtain ⟨u, e₁, hu⟩ := r.exists_gives_type
          obtain ⟨o', e₂, hgives, hanswered, hget⟩ := ih _ (ho.setResult status u)
          refine ⟨o', e₁ + e₂, ?_, hanswered, fun code t => ?_⟩
          · simp only [withResponses, hkey]
            exact hu.bind hgives
          · have hanswers : r.Answers u := ⟨e₁, hu⟩
            have hiff : r.Answers t ↔ u = t := ⟨hanswers.unique, fun heq => heq ▸ hanswers⟩
            rw [hget, lastAnswer_cons_iff, List.forall_mem_cons, hkey, ho.get?_setResult, hiff]
            by_cases hcode : code = status
            · simp [hcode]
            · simp [hcode, Ne.symm hcode]

/-- Of the texts that stand for the code, `key` is the last one in their order, and `r` is its
response. -/
structure IsLastText (responses : SortedMap String Response) (code : Nat) (key : String)
    (r : Response) : Prop where
  found : responses.get? key = some r
  stands : statusCode? key = some code
  last : ∀ other r', responses.get? other = some r' → statusCode? other = some code →
    (compare other key).isLE = true

section Order

variable {responses : SortedMap String Response}

theorem exists_lastAnswer {entries : List (String × Response)} {code : Nat}
    (h : ∃ entry ∈ entries, statusCode? entry.1 = some code) :
    ∃ t, LastAnswer code t entries := by
  induction entries with
  | nil => simp at h
  | cons entry rest ih =>
      by_cases hrest : ∃ entry ∈ rest, statusCode? entry.1 = some code
      · obtain ⟨t, ht⟩ := ih hrest
        exact ⟨t, .later ht⟩
      · have hlast : ∀ entry ∈ rest, statusCode? entry.1 ≠ some code := by simpa using hrest
        rw [List.exists_mem_cons_iff, or_iff_left hrest] at h
        obtain ⟨t, ht⟩ := entry.2.exists_gives_type
        exact ⟨t, .here h hlast ht⟩

theorem lastAnswer_iff_append {entries : List (String × Response)} {code : Nat} {t : DataType} :
    LastAnswer code t entries ↔ ∃ before key r after, entries = before ++ (key, r) :: after ∧
      statusCode? key = some code ∧ (∀ entry ∈ after, statusCode? entry.1 ≠ some code) ∧
        r.Answers t := by
  constructor
  · intro h
    induction h with
    | here hcode hlast hanswers => exact ⟨[], _, _, _, rfl, hcode, hlast, hanswers⟩
    | @later entry rest _ ih =>
        obtain ⟨before, key, r, after, rfl, hrest⟩ := ih
        exact ⟨entry :: before, key, r, after, rfl, hrest⟩
  · rintro ⟨before, key, r, after, rfl, hcode, hlast, hanswers⟩
    induction before with
    | nil => exact .here hcode hlast hanswers
    | cons entry rest ih => exact .later ih

/-- In ascending order the last text that is visited is the last one of all. -/
theorem lastAnswer_iff (hresponses : Ascending responses.entries) {code : Nat} {t : DataType} :
    LastAnswer code t responses.entries ↔
      ∃ key r, IsLastText responses code key r ∧ r.Answers t := by
  rw [lastAnswer_iff_append]
  constructor
  · rintro ⟨before, key, r, after, hentries, hcode, hlast, hanswers⟩
    have hmem : (key, r) ∈ responses.entries := by simp [hentries]
    refine ⟨key, r, ⟨(mem_entries_iff hresponses).mp hmem, hcode, ?_⟩, hanswers⟩
    intro other r' hget hother
    have hin := (mem_entries_iff hresponses).mpr hget
    rw [hentries] at hin hresponses
    rw [List.mem_append, List.mem_cons] at hin
    rcases hin with hin | heq | hin
    · have hlt : compare other key = .lt :=
        (List.pairwise_append.mp hresponses).2.2 _ hin _ List.mem_cons_self
      rw [hlt]
      rfl
    · obtain ⟨rfl, -⟩ := Prod.mk.inj heq
      simp
    · exact absurd hother (hlast _ hin)
  · rintro ⟨key, r, hkey, hanswers⟩
    have hmem := (mem_entries_iff hresponses).mpr hkey.found
    obtain ⟨before, after, hentries⟩ := List.append_of_mem hmem
    refine ⟨before, key, r, after, hentries, hkey.stands, fun entry hentry hcode => ?_, hanswers⟩
    have hin : (entry.1, entry.2) ∈ responses.entries := by simp [hentries, hentry]
    have hle := hkey.last entry.1 entry.2 ((mem_entries_iff hresponses).mp hin) hcode
    rw [hentries] at hresponses
    have hlater := (List.pairwise_append.mp hresponses).2.1
    have hlt : compare key entry.1 = .lt := (List.pairwise_cons.mp hlater).1 entry hentry
    rw [Std.OrientedCmp.gt_iff_lt.mpr hlt] at hle
    cases hle

end Order

/-- What comes of the responses of a documented method whose arguments can be found.  Its operation
has answers for exactly the codes that some text stands for, in their order; the answer for a code
is that of the last text that stands for it; and the result is the ordinary one of the answers. -/
theorem documented_answers (m : Method) {doc : MemberDoc}
    (hresponses : Ascending doc.responses.entries) (shared : List Argument) {own : List Argument}
    {d d' : Degradations} (hown : m.documentedArguments doc shared d = .ok (own, d')) :
    ∃ o d'', m.documentedOperation doc shared d = .ok (o, d'') ∧
      Ascending o.results.entries ∧
      (∀ code, o.results.contains code = true ↔
        ∃ key ∈ doc.responses.keys, statusCode? key = some code) ∧
      (∀ code t, o.results.get? code = some t ↔
        ∃ key r, IsLastText doc.responses code key r ∧ r.Answers t) ∧
      Operation.Ordinary o.results o.result := by
  obtain ⟨e, hgives, rfl⟩ := (steady_documentedArguments m doc shared).eq_ok_iff.mp hown
  obtain ⟨o, e', hresults, hanswered, hget⟩ := exists_withResponses doc.responses.entries
    { Operation.named m.name with
      description := Docstring.summary m.doc, arguments := shared ++ own } ⟨.nil, rfl⟩
  have hlast : ∀ code t, o.results.get? code = some t ↔
      LastAnswer code t doc.responses.entries := by
    intro code t
    rw [hget, or_iff_left]
    rintro ⟨-, hnone⟩
    cases hnone
  refine ⟨o, _, hgives.bind hresults d, hanswered.ascending, fun code => ?_, fun code t => ?_, ?_⟩
  · rw [contains, Option.isSome_iff_exists]
    simp only [hlast, SortedMap.keys, List.mem_map, exists_exists_and_eq_and]
    exact ⟨fun ⟨t, ht⟩ => ht.exists_code, exists_lastAnswer⟩
  · rw [hlast, lastAnswer_iff hresponses]
  · rw [hanswered.result]
    exact Operation.ordinary_primary? hanswered.ascending

end Method

namespace ResponsesWitness

def response (word : String) : Response :=
  ⟨none, some (.hint (.literal word))⟩

/-- Two texts stand for 201, and one for none. -/
def findDoc : MemberDoc where
  params := .empty
  expect := []
  responses := ⟨[("+201", response "str"), ("0404", response "str"), ("201", response "int"),
    ("gone", response "str")]⟩

def member : Member where
  kind := .function
  doc := none
  plainArguments := none
  plainResult := none
  memberDoc := some findDoc
  signature := .empty

def find : Method where
  owner := {
    name := "Shop"
    module := "app.shop"
    capability := .serviceBase
    implementationName := none
    classDoc := none
    webNamespace := none
    members := ⟨[("find", member)]⟩ }
  name := "find"
  member := member

theorem ascending_responses : Ascending findDoc.responses.entries := by
  decide

theorem isLastText_201 : Method.IsLastText findDoc.responses 201 "201" (response "int") where
  found := rfl
  stands := by decide
  last := by
    have hlast : ∀ entry ∈ findDoc.responses.entries, statusCode? entry.1 = some 201 →
        (compare entry.1 "201").isLE = true := by decide
    exact fun other r' hget => hlast (other, r') ((mem_entries_iff ascending_responses).mpr hget)

/-- The answer for 201 is that of the later text, and it is the result, although a lower text and
another code come before it. -/
theorem find_answers :
    Ascending findDoc.responses.entries ∧
      ∃ own d', find.documentedArguments findDoc [] .none = .ok (own, d') ∧
        ∃ o d'', find.documentedOperation findDoc [] .none = .ok (o, d'') ∧
          o.results.get? 201 = some ((TypeHint.literal "int").adapt none).1 ∧
            Operation.Ordinary o.results o.result := by
  have hown : find.documentedArguments findDoc [] .none = .ok ([], .none) := rfl
  obtain ⟨o, d'', hoperation, -, -, hget, hordinary⟩ :=
    Method.documented_answers find ascending_responses [] hown
  refine ⟨ascending_responses, [], .none, hown, o, d'', hoperation, (hget _ _).mpr ?_, hordinary⟩
  exact ⟨"201", response "int", isLastText_201, _, gives_record _⟩

end ResponsesWitness

end ServiceGen

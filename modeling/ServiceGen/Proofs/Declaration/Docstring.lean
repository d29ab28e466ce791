import ServiceGen.Declaration.Methods
import ServiceGen.Proofs.Text.Search
import ServiceGen.Proofs.Text.Trim

/-!
Docstrings that are put together from parts: a summary, a block for each parameter, and one for the
answer, each on lines of its own.  No mark or tag is found across two blocks or inside of one, so
the parts are what is read from the docstring: `Sections.parts_read_back`.
-/

namespace ServiceGen.Docstring

open Text

/-- The parts of a docstring. -/
structure Sections where
  summary : String
  params : List (String × String)
  answer : Option String

/-- The text holds no mark. -/
def IsPlain (text : String) : Prop :=
  occurs paramMark text = false ∧ occurs returnMark text = false

/-- A line feed and what the next line is indented with. -/
def IsLineBreak (gap : String) : Prop :=
  ∃ indent, gap = "\n" ++ indent ∧ allBlank indent = true

namespace Sections

def paramBlock (p : String × String) : String :=
  paramMark ++ " " ++ p.1 ++ ": " ++ p.2

def answerBlock (text : String) : String :=
  returnMark ++ ": " ++ text

def blocks (params : List (String × String)) (answer : Option String) : List String :=
  params.map paramBlock ++ (answer.map answerBlock).toList

/-- The docstring, with `gap` in front of each block. -/
def written (gap : String) (d : Sections) : String :=
  gap.intercalate (d.summary :: blocks d.params d.answer)

/-- The names are distinct and without colons, and no text holds a mark. -/
structure Separable (d : Sections) : Prop where
  names_nodup : (d.params.map (·.1)).Nodup
  names : ∀ p ∈ d.params, ':' ∉ p.1.toList
  summary : IsPlain d.summary
  texts : ∀ p ∈ d.params, IsPlain p.2
  answer : ∀ text ∈ d.answer, IsPlain text

end Sections

section Marks

variable {gap : String}

theorem IsLineBreak.blank (hgap : IsLineBreak gap) : ∀ c ∈ gap.toList, isBlank c = true := by
  obtain ⟨indent, rfl, hindent⟩ := hgap
  rw [String.toList_append, List.forall_mem_append]
  exact ⟨by simp [isBlank], List.all_eq_true.mp hindent⟩

theorem IsLineBreak.ne_nil (hgap : IsLineBreak gap) : gap.toList ≠ [] := by
  obtain ⟨indent, rfl, -⟩ := hgap
  simp

/-- Marks begin with a colon and have no blank characters. -/
def AreMarks (marks : List String) : Prop :=
  ∀ m ∈ marks, m.toList.head? = some ':' ∧ ∀ c ∈ m.toList, isBlank c = false

theorem areMarks_summary : AreMarks [paramMark, returnMark ++ ":"] := by
  simp [AreMarks, paramMark, returnMark, isBlank]

theorem areMarks_param : AreMarks [paramMark, returnMark] := by
  simp [AreMarks, paramMark, returnMark, isBlank]

/-- Up to the next block, and without the blanks around it, a text is left as it is. -/
theorem textUntil_blocks {marks : List String} (hmarks : AreMarks marks) (hgap : IsLineBreak gap)
    {front : List Char} (hfront : ∀ c ∈ front, isBlank c = true) {text : String}
    (htext : ∀ m ∈ marks, ¬ m.toList <:+: text.toList) {blocks : List String}
    (hblocks : ∀ b ∈ blocks, ∃ m ∈ marks, m.toList <+: b.toList) :
    textUntil marks (front ++ text.toList ++ blocks.flatMap fun b => gap.toList ++ b.toList) =
      trim text := by
  have habsent : ∀ m ∈ marks.map String.toList, ¬ m <:+: front ++ text.toList := by
    rw [List.forall_mem_map]
    intro m hm
    obtain ⟨cs, hcs⟩ := List.head?_eq_some_iff.mp (hmarks m hm).1
    have hcolon : ':' ∉ front := fun hmem => by simpa [isBlank] using hfront ':' hmem
    rw [hcs, infix_append_of_head_notMem hcolon, ← hcs]
    exact htext m hm
  have hapart : ∀ m ∈ marks.map String.toList, m ≠ [] ∧ ∀ c ∈ gap.toList, c ∉ m := by
    rw [List.forall_mem_map]
    intro m hm
    obtain ⟨hhead, hvisible⟩ := hmarks m hm
    refine ⟨fun hnil => by simp [hnil] at hhead, fun c hc hmem => ?_⟩
    cases (hvisible c hmem).symm.trans (hgap.blank c hc)
  rw [textUntil]
  cases blocks with
  | nil =>
      rw [List.flatMap_nil, List.append_nil, untilAny_of_absent habsent]
      have hback : ∀ c ∈ ([] : List Char), isBlank c = true := nofun
      simpa using trim_surrounded hfront hback text
  | cons b rest =>
      obtain ⟨m, hm, after, hb⟩ := hblocks b List.mem_cons_self
      have hmark : m.toList ∈ marks.map String.toList := List.mem_map_of_mem hm
      rw [List.flatMap_cons, List.append_assoc gap.toList, untilAny_append_gap hgap.ne_nil hapart
        habsent, ← hb, List.append_assoc m.toList, untilAny_mark hmark (hapart _ hmark).1,
        List.append_nil]
      exact trim_surrounded hfront hgap.blank text

/-- Behind a colon that ends a label comes a blank, so no mark begins there. -/
theorem not_infix_labelled {label text : List Char} (hlabel : ':' ∉ label)
    (htext : ¬ paramMark.toList <:+: text) :
    ¬ paramMark.toList <:+: label ++ ':' :: ' ' :: text := by
  have hmark : paramMark.toList = ':' :: "param".toList := by decide
  rw [hmark] at htext ⊢
  rw [infix_append_of_head_notMem hlabel, List.infix_cons_iff, not_or]
  have hblank : ':' ∉ [' '] := by decide
  exact ⟨by simp, fun hinfix => htext ((infix_append_of_head_notMem hblank).mp hinfix)⟩

end Marks

namespace Sections

variable {gap : String} {params : List (String × String)} {answer : Option String}

theorem toList_paramBlock (p : String × String) :
    (paramBlock p).toList = ':' :: ("param ".toList ++ p.1.toList ++ ':' :: ' ' :: p.2.toList) := by
  simp [paramBlock, paramMark]

theorem toList_answerBlock (text : String) :
    (answerBlock text).toList = ':' :: ("return".toList ++ ':' :: ' ' :: text.toList) := by
  simp [answerBlock, returnMark]

/-- What the text about a parameter is found by. -/
def tag (name : String) : List Char :=
  (paramMark ++ " " ++ name ++ ":").toList

theorem tag_eq (name : String) :
    tag name = paramMark.toList ++ (" ".toList ++ name.toList ++ ":".toList) := by
  simp [tag]

theorem param?_eq (doc name : String) :
    param? doc name = (((cut? (tag name) doc.toList).map (·.2)).map
      (textUntil [paramMark, returnMark])).filter (!·.isEmpty) := by
  rw [param?, tag]
  cases cut? (paramMark ++ " " ++ name ++ ":").toList doc.toList <;> rfl

/-- A name ends at its first colon. -/
theorem eq_of_prefix_colon {name other rest : List Char} (hname : ':' ∉ name)
    (hother : ':' ∉ other) (h : name ++ [':'] <+: other ++ ':' :: rest) : name = other := by
  have hbefore : ∀ cs : List Char, ':' ∉ cs → ∀ after : List Char,
      (cs ++ ':' :: after).takeWhile (· ≠ ':') = cs := by
    intro cs hcs after
    have hall : ∀ c ∈ cs, decide (c ≠ ':') = true := fun c hc => by
      have hne : c ≠ ':' := fun heq => hcs (heq ▸ hc)
      simpa using hne
    rw [List.takeWhile_append_of_pos hall]
    simp
  obtain ⟨more, hmore⟩ := h
  rw [List.append_assoc, List.singleton_append] at hmore
  rw [← hbefore name hname more, hmore, hbefore other hother rest]

/-- A block about a parameter does not begin with the tag of another name. -/
theorem not_prefix_paramBlock {name : String} (hname : ':' ∉ name.toList) {p : String × String}
    (hp : ':' ∉ p.1.toList) (hne : name ≠ p.1) (rest : List Char) :
    ¬ tag name <+: (paramBlock p).toList ++ rest := by
  have htag : tag name = (paramMark ++ " ").toList ++ (name.toList ++ [':']) := by
    simp [tag]
  have hblock : (paramBlock p).toList ++ rest =
      (paramMark ++ " ").toList ++ (p.1.toList ++ ':' :: (' ' :: p.2.toList ++ rest)) := by
    simp [paramBlock]
  rw [htag, hblock, List.prefix_append_right_inj]
  exact fun hprefix => hne (String.toList_injective (eq_of_prefix_colon hname hp hprefix))

theorem exists_mark_of_mem_blocks {b : String} (hb : b ∈ blocks params answer) :
    ∃ m ∈ [paramMark, returnMark ++ ":"], m.toList <+: b.toList := by
  rw [blocks, List.mem_append, List.mem_map, Option.mem_toList, Option.map_eq_some_iff] at hb
  rcases hb with ⟨p, -, rfl⟩ | ⟨text, -, rfl⟩
  · exact ⟨paramMark, List.mem_cons_self, by simp [paramBlock]⟩
  · exact ⟨returnMark ++ ":", by simp, by simp [answerBlock]⟩

theorem exists_shorter_mark_of_mem_blocks {b : String} (hb : b ∈ blocks params answer) :
    ∃ m ∈ [paramMark, returnMark], m.toList <+: b.toList := by
  obtain ⟨m, hm, hprefix⟩ := exists_mark_of_mem_blocks hb
  rcases List.mem_pair.mp hm with rfl | rfl
  · exact ⟨_, List.mem_cons_self, hprefix⟩
  · refine ⟨returnMark, by simp, List.IsPrefix.trans ?_ hprefix⟩
    simp

theorem notMem_mark_of_blank {c : Char} (hc : isBlank c = true) : c ∉ paramMark.toList := by
  have hvisible : ∀ d ∈ paramMark.toList, isBlank d = false := by
    simp [paramMark, isBlank]
  exact fun hmem => absurd hc (by simp [hvisible c hmem])

/-- The search for a name goes past what stands before the first block. -/
theorem snd_cut?_gap (hgap : IsLineBreak gap) (name : String) {before : List Char}
    (hbefore : ¬ paramMark.toList <:+: before) (rest : List Char) :
    (cut? (tag name) (before ++ (gap.toList ++ rest))).map (·.2) =
      (cut? (tag name) rest).map (·.2) := by
  rw [tag_eq]
  exact snd_cut?_lead_append (by decide) hgap.ne_nil
    (fun c hc => notMem_mark_of_blank (hgap.blank c hc)) hbefore _ rest

theorem cut?_tag_of_absent (name : String) {cs : List Char} (h : ¬ paramMark.toList <:+: cs) :
    cut? (tag name) cs = none := by
  rw [cut?_eq_none_iff, tag_eq]
  exact fun hinfix => h ((List.prefix_append _ _).isInfix.trans hinfix)

theorem not_infix_answerBlock {text : String} (htext : IsPlain text) :
    ¬ paramMark.toList <:+: (answerBlock text).toList := by
  rw [toList_answerBlock, List.infix_cons_iff, not_or]
  exact ⟨by simp [paramMark], not_infix_labelled (by decide) (occurs_eq_false_iff.mp htext.1)⟩

/-- In the blocks, a name is found in front of its text. -/
theorem snd_cut?_blocks (hgap : IsLineBreak gap) {name : String} (hname : ':' ∉ name.toList)
    (hparams : ∀ p ∈ params, ':' ∉ p.1.toList ∧ IsPlain p.2)
    (hanswer : ∀ text ∈ answer, IsPlain text) {before : List Char}
    (hbefore : ¬ paramMark.toList <:+: before) :
    ((cut? (tag name) (before ++ (blocks params answer).flatMap fun b =>
        gap.toList ++ b.toList)).map (·.2)).map (textUntil [paramMark, returnMark]) =
      (params.lookup name).map trim := by
  induction params generalizing before with
  | nil =>
      cases answer with
      | none => simp [blocks, cut?_tag_of_absent name hbefore]
      | some text =>
          have hanswer := not_infix_answerBlock (hanswer text rfl)
          simp only [blocks, List.map_nil, List.nil_append, Option.map_some, Option.toList_some,
            List.flatMap_cons, List.flatMap_nil, List.append_nil]
          rw [snd_cut?_gap hgap name hbefore, cut?_tag_of_absent name hanswer]
          rfl
  | cons p rest ih =>
      rw [List.forall_mem_cons] at hparams
      have hblocks : blocks (p :: rest) answer = paramBlock p :: blocks rest answer := rfl
      rw [hblocks, List.flatMap_cons, List.append_assoc gap.toList, snd_cut?_gap hgap name hbefore]
      by_cases hp : name = p.1
      · subst hp
        have hfound : (paramBlock p).toList = tag p.1 ++ [' '] ++ p.2.toList := by
          simp [paramBlock, tag]
        have hmarks : ∀ m ∈ [paramMark, returnMark], ¬ m.toList <:+: p.2.toList := by
          simpa [IsPlain, occurs_eq_false_iff] using hparams.1.2
        rw [hfound, List.append_assoc (tag p.1), List.append_assoc (tag p.1), cut?_append_self,
          List.lookup_cons_self]
        exact congrArg some (textUntil_blocks areMarks_param hgap (by simp [isBlank]) hmarks
          fun b hb => exists_shorter_mark_of_mem_blocks hb)
      · have hlabel : ¬ paramMark.toList <:+:
            "param ".toList ++ p.1.toList ++ ':' :: ' ' :: p.2.toList :=
          not_infix_labelled (by simp [hparams.1.1]) (occurs_eq_false_iff.mp hparams.1.2.1)
        have hnot := not_prefix_paramBlock hname hparams.1.1 hp
          ((blocks rest answer).flatMap fun b => gap.toList ++ b.toList)
        have hlookup : List.lookup name (p :: rest) = List.lookup name rest := by
          have hbeq : (name == p.1) = false := beq_eq_false_iff_ne.mpr hp
          rw [List.lookup_cons, hbeq]
        rw [toList_paramBlock, List.cons_append] at hnot ⊢
        rw [snd_cut?_cons_of_unprefixed hnot, ih hparams.2 hlabel, hlookup]

theorem toList_written (gap : String) (d : Sections) :
    (d.written gap).toList = d.summary.toList ++
      (blocks d.params d.answer).flatMap fun b => gap.toList ++ b.toList :=
  toList_intercalate_cons gap d.summary _

/-- In a docstring that is put together from parts, the summary is found, and under each name the
text that stands first for it. -/
theorem param?_written (hgap : IsLineBreak gap) {d : Sections} (hd : d.Separable) {name : String}
    (hname : ':' ∉ name.toList) :
    param? (d.written gap) name = ((d.params.lookup name).map trim).filter (!·.isEmpty) := by
  have hparams : ∀ p ∈ d.params, ':' ∉ p.1.toList ∧ IsPlain p.2 := fun p hp =>
    ⟨hd.names p hp, hd.texts p hp⟩
  rw [param?_eq, toList_written,
    snd_cut?_blocks hgap hname hparams hd.answer (occurs_eq_false_iff.mp hd.summary.1)]

theorem lookup_of_mem {name text : String} (hnodup : (params.map (·.1)).Nodup)
    (hmem : (name, text) ∈ params) : params.lookup name = some text := by
  obtain ⟨before, after, rfl⟩ := List.append_of_mem hmem
  rw [List.lookup_eq_some_iff]
  refine ⟨before, after, rfl, fun p hp => ?_⟩
  rw [List.map_append, List.nodup_append] at hnodup
  have hne := hnodup.2.2 p.1 (List.mem_map_of_mem hp) name (by simp)
  simpa using Ne.symm hne

/-- The summary is read, trimmed, and so is the text of each parameter; one without visible text is
as good as none, as is any other name. -/
theorem parts_read_back {gap : String} (hgap : IsLineBreak gap) {d : Sections}
    (hd : d.Separable) :
    Docstring.summary (d.written gap) = trim d.summary ∧
      (∀ p ∈ d.params, param? (d.written gap) p.1 =
        if trim p.2 = "" then none else some (trim p.2)) ∧
      ∀ name, ':' ∉ name.toList → name ∉ d.params.map (·.1) →
        param? (d.written gap) name = none := by
  refine ⟨?_, fun p hp => ?_, fun name hname hother => ?_⟩
  · have hplain : ¬ paramMark.toList <:+: d.summary.toList ∧
        ¬ (returnMark ++ ":").toList <:+: d.summary.toList := by
      refine ⟨occurs_eq_false_iff.mp hd.summary.1, fun hinfix => ?_⟩
      rw [String.toList_append] at hinfix
      exact occurs_eq_false_iff.mp hd.summary.2 ((List.prefix_append _ _).isInfix.trans hinfix)
    have hmarks : ∀ m ∈ [paramMark, returnMark ++ ":"], ¬ m.toList <:+: d.summary.toList := by
      simpa using hplain
    rw [Docstring.summary, toList_written]
    have hfront : ∀ c ∈ ([] : List Char), isBlank c = true := nofun
    exact textUntil_blocks areMarks_summary hgap hfront hmarks
      fun b hb => exists_mark_of_mem_blocks hb
  · rw [param?_written hgap hd (hd.names p hp), lookup_of_mem hd.names_nodup hp]
    by_cases hempty : trim p.2 = "" <;> simp [hempty]
  · have hnone : d.params.lookup name = none := by
      rw [List.lookup_eq_none_iff]
      intro p hp
      have hne : name ≠ p.1 := fun heq => hother (heq ▸ List.mem_map_of_mem hp)
      simpa using hne
    rw [param?_written hgap hd hname, hnone]
    rfl

end Sections

namespace SectionsWitness

/-- One name begins another one, and a text goes on in the next line. -/
def hello : Sections :=
  ⟨"say hello", [("user_id", "the id"), ("user", "whom to greet:\n  a user"), ("age", " ")],
    some "greeting"⟩

theorem hello_read_back :
    IsLineBreak "\n    " ∧ hello.Separable ∧
      Docstring.summary (hello.written "\n    ") = "say hello" ∧
      param? (hello.written "\n    ") "user" = some "whom to greet:\n  a user" ∧
      param? (hello.written "\n    ") "age" = none ∧
      param? (hello.written "\n    ") "id" = none := by
  have hgap : IsLineBreak "\n    " := ⟨"    ", by decide, by decide⟩
  have hseparable : hello.Separable :=
    ⟨by decide, by decide, by unfold IsPlain; decide +kernel, by unfold IsPlain; decide +kernel,
      by unfold IsPlain; decide +kernel⟩
  obtain ⟨hsummary, hparams, hother⟩ := Sections.parts_read_back hgap hseparable
  refine ⟨hgap, hseparable, hsummary.trans (by decide +kernel), ?_, ?_,
    hother "id" (by decide) (by decide)⟩
  · exact (hparams ("user", "whom to greet:\n  a user") (by simp [hello])).trans
      (by decide +kernel)
  · exact (hparams ("age", " ") (by simp [hello])).trans (by decide +kernel)

end SectionsWitness

end ServiceGen.Docstring

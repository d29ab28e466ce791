import Mathlib.Data.List.Infix
import ServiceGen.Text.Basic

/-!
Texts as sequences of characters.  Texts strung together are their sequences one after another.
Searching a text is about prefixes and infixes: `strip?` takes a prefix away, and `cut?` fails
exactly when there is no infix and stops before the first one.  What stands before the first of
several marks is found past everything that holds none of them.
-/

namespace ServiceGen.Text

/-- Nothing stands between texts that are strung together. -/
theorem toList_intercalate_nothing (texts : List String) :
    ("".intercalate texts).toList = texts.flatMap String.toList := by
  induction texts with
  | nil => rfl
  | cons head tail ih =>
      cases tail with
      | nil => simp
      | cons next rest =>
          rw [String.intercalate_cons_cons, String.append_empty, String.toList_append, ih]
          rfl

/-- Texts with a separator between them: the first one, and each other one behind the separator. -/
theorem toList_intercalate_cons (sep text : String) (texts : List String) :
    (sep.intercalate (text :: texts)).toList =
      text.toList ++ texts.flatMap fun t => sep.toList ++ t.toList := by
  induction texts generalizing text with
  | nil => simp
  | cons next rest ih =>
      rw [String.intercalate_cons_cons, String.toList_append, ih, String.toList_append,
        List.flatMap_cons]
      simp [List.append_assoc]

theorem strip?_eq_some_iff {lead cs rest : List Char} :
    strip? lead cs = some rest ↔ cs = lead ++ rest := by
  induction lead generalizing cs with
  | nil => simp [strip?]
  | cons l ls ih =>
      cases cs with
      | nil => simp [strip?]
      | cons c cs =>
          by_cases hc : l = c
          · simp [strip?, hc, ih]
          · have hne : ¬ c = l := fun heq => hc heq.symm
            simp [strip?, hc, hne]

@[simp] theorem strip?_append (lead rest : List Char) : strip? lead (lead ++ rest) = some rest :=
  strip?_eq_some_iff.mpr rfl

theorem stripStart?_eq_some_iff {lead s rest : String} :
    stripStart? lead s = some rest ↔ s = lead ++ rest := by
  simp only [stripStart?, Option.map_eq_some_iff, strip?_eq_some_iff, ← String.toList_inj,
    String.toList_append]
  constructor
  · rintro ⟨cs, hs, hrest⟩
    rw [← hrest, String.toList_ofList, hs]
  · exact fun hs => ⟨rest.toList, hs, String.toList_ofList⟩

theorem stripEnd?_eq_some_iff {tail s rest : String} :
    stripEnd? tail s = some rest ↔ s = rest ++ tail := by
  simp only [stripEnd?, Option.map_eq_some_iff, strip?_eq_some_iff, ← String.toList_inj,
    String.toList_append]
  constructor
  · rintro ⟨cs, hs, hrest⟩
    rw [← hrest, String.toList_ofList, ← List.reverse_inj, hs, List.reverse_append,
      List.reverse_reverse]
  · intro hs
    exact ⟨rest.toList.reverse, by rw [hs, List.reverse_append],
      by rw [List.reverse_reverse, String.toList_ofList]⟩

theorem strip?_eq_none_iff {lead cs : List Char} : strip? lead cs = none ↔ ¬ lead <+: cs := by
  rw [Option.eq_none_iff_forall_not_mem]
  constructor
  · rintro hnone ⟨rest, rfl⟩
    exact hnone rest (strip?_append lead rest)
  · intro hprefix rest hrest
    exact hprefix ⟨rest, (strip?_eq_some_iff.mp hrest).symm⟩

/-- What begins a text and lacks the separator begins what stands in front of the separator. -/
theorem prefix_of_prefix_append {needle before rest : List Char} {sep : Char}
    (hsep : sep ∉ needle) (h : needle <+: before ++ sep :: rest) : needle <+: before := by
  rcases Nat.le_total needle.length before.length with hle | hle
  · exact List.prefix_of_prefix_length_le h (List.prefix_append before _) hle
  · have hbefore : before <+: needle :=
      List.prefix_of_prefix_length_le (List.prefix_append before _) h hle
    obtain ⟨extra, rfl⟩ := hbefore
    rw [List.prefix_append_right_inj] at h
    cases extra with
    | nil => simp
    | cons c extra =>
        rw [List.cons_prefix_cons] at h
        simp [h.1] at hsep

theorem cut?_eq_none_iff {needle cs : List Char} : cut? needle cs = none ↔ ¬ needle <:+: cs := by
  induction cs with
  | nil => cases needle <;> simp [cut?]
  | cons c cs ih =>
      rw [List.infix_cons_iff, not_or, ← strip?_eq_none_iff, ← ih, cut?]
      cases hstrip : strip? needle (c :: cs) <;> simp

/-- A cut leaves no earlier occurrence in front of it. -/
theorem cut?_eq_some {needle cs before after : List Char} (hneedle : needle ≠ [])
    (h : cut? needle cs = some (before, after)) :
    cs = before ++ needle ++ after ∧ ¬ needle <:+: before := by
  induction cs generalizing before with
  | nil => cases needle <;> simp_all [cut?]
  | cons c cs ih =>
      rw [cut?] at h
      cases hstrip : strip? needle (c :: cs) with
      | some rest =>
          obtain ⟨rfl, rfl⟩ : before = [] ∧ after = rest := by simpa [hstrip, eq_comm] using h
          exact ⟨strip?_eq_some_iff.mp hstrip, by simpa using hneedle⟩
      | none =>
          simp only [hstrip, Option.map_eq_some_iff, Prod.exists, Prod.mk.injEq] at h
          obtain ⟨before, _, hcut, rfl, rfl⟩ := h
          obtain ⟨hcs, hbefore⟩ := ih hcut
          refine ⟨by rw [hcs]; rfl, ?_⟩
          rw [List.infix_cons_iff, not_or]
          refine ⟨fun hprefix => strip?_eq_none_iff.mp hstrip ?_, hbefore⟩
          rw [hcs, List.append_assoc]
          exact hprefix.trans (List.prefix_append (c :: before) _)

/-- The search goes on behind a separator that is no part of how the text looked for begins, when
that beginning does not occur before. -/
theorem cut?_lead_append_cons {lead before : List Char} {sep : Char} (hlead : lead ≠ [])
    (hsep : sep ∉ lead) (hbefore : ¬ lead <:+: before) (more rest : List Char) :
    cut? (lead ++ more) (before ++ sep :: rest) =
      (cut? (lead ++ more) rest).map fun (inner, after) => (before ++ sep :: inner, after) := by
  have hstrip : ∀ cs : List Char, ¬ lead <+: cs →
      strip? (lead ++ more) (cs ++ sep :: rest) = none := by
    intro cs hcs
    rw [strip?_eq_none_iff]
    exact fun hprefix =>
      hcs (prefix_of_prefix_append hsep ((List.prefix_append lead more).trans hprefix))
  induction before with
  | nil =>
      have hnil := hstrip [] fun hprefix => hlead (List.prefix_nil.mp hprefix)
      rw [List.nil_append] at hnil
      rw [List.nil_append, cut?, hnil]
      rfl
  | cons c before ih =>
      rw [List.infix_cons_iff, not_or] at hbefore
      have hcons := hstrip (c :: before) hbefore.1
      rw [List.cons_append] at hcons
      rw [List.cons_append, cut?, hcons, ih hbefore.2, Option.map_map]
      rfl

/-- The search goes on behind a separator that is no part of what is looked for. -/
theorem cut?_append_cons {needle before : List Char} {sep : Char} (hneedle : needle ≠ [])
    (hsep : sep ∉ needle) (hbefore : ¬ needle <:+: before) (rest : List Char) :
    cut? needle (before ++ sep :: rest) =
      (cut? needle rest).map fun (inner, after) => (before ++ sep :: inner, after) := by
  simpa using cut?_lead_append_cons hneedle hsep hbefore [] rest

theorem cut?_cons {needle : List Char} {sep : Char} (hneedle : needle ≠ []) (hsep : sep ∉ needle)
    (rest : List Char) :
    cut? needle (sep :: rest) =
      (cut? needle rest).map fun (inner, after) => (sep :: inner, after) := by
  have hbefore : ¬ needle <:+: [] := by simpa using hneedle
  exact cut?_append_cons hneedle hsep hbefore rest

theorem cut?_append_self (needle rest : List Char) :
    cut? needle (needle ++ rest) = some ([], rest) := by
  cases needle with
  | nil => cases rest <;> rfl
  | cons c cs =>
      have hstrip := strip?_append (c :: cs) rest
      rw [List.cons_append] at hstrip ⊢
      rw [cut?, hstrip]

theorem snd_cut?_cons_of_unprefixed {needle : List Char} {c : Char} {cs : List Char}
    (h : ¬ needle <+: c :: cs) :
    (cut? needle (c :: cs)).map (·.2) = (cut? needle cs).map (·.2) := by
  rw [cut?, strip?_eq_none_iff.mpr h, Option.map_map]
  rfl

/-- What stands behind the first occurrence is found behind characters that are no part of how the
text looked for begins. -/
theorem snd_cut?_lead_append {lead gap before : List Char} (hlead : lead ≠ []) (hgap : gap ≠ [])
    (hnot : ∀ c ∈ gap, c ∉ lead) (hbefore : ¬ lead <:+: before) (more rest : List Char) :
    (cut? (lead ++ more) (before ++ (gap ++ rest))).map (·.2) =
      (cut? (lead ++ more) rest).map (·.2) := by
  induction gap generalizing before with
  | nil => exact absurd rfl hgap
  | cons c gap ih =>
      rw [List.forall_mem_cons] at hnot
      rw [List.cons_append, cut?_lead_append_cons hlead hnot.1 hbefore, Option.map_map]
      cases gap with
      | nil => rfl
      | cons d gap =>
          have hnil : ¬ lead <:+: [] := by simpa using hlead
          exact ih (List.cons_ne_nil d gap) hnot.2 hnil

/-- A text that begins with a character does not begin before the first such character. -/
theorem infix_append_of_head_notMem {c : Char} {cs before rest : List Char} (hc : c ∉ before) :
    c :: cs <:+: before ++ rest ↔ c :: cs <:+: rest := by
  induction before with
  | nil => rfl
  | cons d before ih =>
      rw [List.mem_cons, not_or] at hc
      rw [List.cons_append, List.infix_cons_iff, List.cons_prefix_cons, ih hc.2]
      exact or_iff_right fun h => hc.1 h.1

theorem occurs_eq_false_iff {needle hay : String} :
    occurs needle hay = false ↔ ¬ needle.toList <:+: hay.toList := by
  rw [occurs, ← cut?_eq_none_iff, Option.isSome_eq_false_iff, Option.isNone_iff_eq_none]

section UntilAny

variable {marks : List (List Char)} {before : List Char}

theorem untilAny_cons_of_unprefixed {c : Char} {cs : List Char}
    (h : ∀ m ∈ marks, ¬ m <+: c :: cs) : untilAny marks (c :: cs) = c :: untilAny marks cs := by
  have hany : (marks.any fun m => (strip? m (c :: cs)).isSome) = false := by
    rw [List.any_eq_false]
    intro m hm
    simp [strip?_eq_none_iff.mpr (h m hm)]
  rw [untilAny, hany]
  rfl

/-- Without a mark, all of the text is kept. -/
theorem untilAny_of_absent (h : ∀ m ∈ marks, ¬ m <:+: before) : untilAny marks before = before := by
  induction before with
  | nil => rfl
  | cons c before ih =>
      have hmarks : ∀ m ∈ marks, ¬ m <+: c :: before ∧ ¬ m <:+: before := fun m hm =>
        not_or.mp (List.infix_cons_iff.not.mp (h m hm))
      rw [untilAny_cons_of_unprefixed fun m hm => (hmarks m hm).1, ih fun m hm => (hmarks m hm).2]

/-- At a mark the text ends. -/
theorem untilAny_mark {m : List Char} (hm : m ∈ marks) (hne : m ≠ []) (rest : List Char) :
    untilAny marks (m ++ rest) = [] := by
  cases m with
  | nil => exact absurd rfl hne
  | cons c cs =>
      have hany : (marks.any fun m => (strip? m (c :: (cs ++ rest))).isSome) = true :=
        List.any_eq_true.mpr ⟨c :: cs, hm, by rw [← List.cons_append, strip?_append]; rfl⟩
      rw [List.cons_append, untilAny, hany]
      rfl

/-- The text goes on behind a separator that is no part of the marks. -/
theorem untilAny_append_cons {sep : Char} (hmarks : ∀ m ∈ marks, m ≠ [] ∧ sep ∉ m)
    (h : ∀ m ∈ marks, ¬ m <:+: before) (rest : List Char) :
    untilAny marks (before ++ sep :: rest) = before ++ sep :: untilAny marks rest := by
  induction before with
  | nil =>
      refine untilAny_cons_of_unprefixed fun m hm hprefix => (hmarks m hm).1 ?_
      have hnil : m <+: [] := prefix_of_prefix_append (hmarks m hm).2 hprefix
      exact List.prefix_nil.mp hnil
  | cons c before ih =>
      have hbefore : ∀ m ∈ marks, ¬ m <+: c :: before ∧ ¬ m <:+: before := fun m hm =>
        not_or.mp (List.infix_cons_iff.not.mp (h m hm))
      have hprefix : ∀ m ∈ marks, ¬ m <+: c :: (before ++ sep :: rest) := fun m hm hm' =>
        (hbefore m hm).1 (prefix_of_prefix_append (hmarks m hm).2 hm')
      rw [List.cons_append, untilAny_cons_of_unprefixed hprefix, ih fun m hm => (hbefore m hm).2]
      rfl

/-- The text goes on behind characters that are no part of the marks. -/
theorem untilAny_append_gap {gap : List Char} (hgap : gap ≠ [])
    (hmarks : ∀ m ∈ marks, m ≠ [] ∧ ∀ c ∈ gap, c ∉ m) (h : ∀ m ∈ marks, ¬ m <:+: before)
    (rest : List Char) :
    untilAny marks (before ++ (gap ++ rest)) = before ++ (gap ++ untilAny marks rest) := by
  induction gap generalizing before with
  | nil => exact absurd rfl hgap
  | cons c gap ih =>
      have hc : ∀ m ∈ marks, m ≠ [] ∧ c ∉ m := fun m hm =>
        ⟨(hmarks m hm).1, (hmarks m hm).2 c List.mem_cons_self⟩
      rw [List.cons_append, untilAny_append_cons hc h]
      cases gap with
      | nil => rfl
      | cons d gap =>
          have hnil : ∀ m ∈ marks, ¬ m <:+: [] := fun m hm => by simpa using (hmarks m hm).1
          have hrest := ih (List.cons_ne_nil d gap) (fun m hm => ⟨(hmarks m hm).1, fun e he =>
            (hmarks m hm).2 e (List.mem_cons_of_mem c he)⟩) hnil
          rw [List.nil_append] at hrest
          rw [hrest]
          rfl

end UntilAny

end ServiceGen.Text

import Mathlib.Algebra.GroupWithZero.Nat
import Mathlib.Data.List.DropRight
import Mathlib.Data.List.Infix
import Mathlib.Data.List.TakeWhile
import ServiceGen.Proofs.Naming
import ServiceGen.Proofs.Source.LiteralText
import ServiceGen.Proofs.Source.Sections
import ServiceGen.Proofs.Text.Trim

/-!
How often something occurs in a text.  What has no separator in it occurs in a text as often as in
the parts between the separators; so it occurs in generated text as often as in its lines, and no
more often in the lines of a text that are trimmed than in the text.
-/

namespace ServiceGen

namespace Text

/-- How often `needle` begins somewhere in a text. -/
def occurrences (needle : List Char) : List Char → Nat
  | [] => 0
  | c :: cs => (if needle <+: c :: cs then 1 else 0) + occurrences needle cs

/-- Something to look for: it is not empty, and nothing in it is blank. -/
structure Visible (needle : List Char) : Prop where
  ne_nil : needle ≠ []
  notBlank : ∀ c ∈ needle, isBlank c = false

theorem Visible.notMem {needle : List Char} (h : Visible needle) {c : Char}
    (hc : isBlank c = true) : c ∉ needle :=
  fun hmem => Bool.false_ne_true ((h.notBlank c hmem).symm.trans hc)

section Occurrences

variable {needle : List Char} {a b cs : List Char} {sep : Char}

@[simp] theorem occurrences_nil (needle : List Char) : occurrences needle [] = 0 := rfl

theorem occurrences_eq_zero_iff (hneedle : needle ≠ []) :
    occurrences needle cs = 0 ↔ ¬ needle <:+: cs := by
  induction cs with
  | nil => simpa using hneedle
  | cons c cs ih =>
      rw [occurrences, Nat.add_eq_zero_iff, ih, List.infix_cons_iff, not_or]
      simp

/-- What is looked for does not reach over a separator. -/
theorem occurrences_append_cons (hneedle : needle ≠ []) (hsep : sep ∉ needle) (a b : List Char) :
    occurrences needle (a ++ sep :: b) = occurrences needle a + occurrences needle b := by
  induction a with
  | nil =>
      have hnot : ¬ needle <+: sep :: b := by
        intro hprefix
        have hnil : needle <+: [] := prefix_of_prefix_append hsep hprefix
        exact hneedle (List.prefix_nil.mp hnil)
      simp [occurrences, hnot]
  | cons c a ih =>
      have hiff : needle <+: c :: (a ++ sep :: b) ↔ needle <+: c :: a :=
        ⟨fun hprefix => prefix_of_prefix_append hsep hprefix,
          fun hprefix => hprefix.trans (List.prefix_append (c :: a) _)⟩
      simp only [List.cons_append, occurrences, hiff, ih, Nat.add_assoc]

theorem occurrences_cons (hneedle : needle ≠ []) (hsep : sep ∉ needle) (cs : List Char) :
    occurrences needle (sep :: cs) = occurrences needle cs := by
  simpa using occurrences_append_cons hneedle hsep [] cs

/-- Characters that are not looked for may stand in front. -/
theorem occurrences_append_left (hneedle : needle ≠ []) (ha : ∀ c ∈ a, c ∉ needle)
    (cs : List Char) : occurrences needle (a ++ cs) = occurrences needle cs := by
  induction a with
  | nil => rfl
  | cons c a ih =>
      rw [List.forall_mem_cons] at ha
      rw [List.cons_append, occurrences_cons hneedle ha.1, ih ha.2]

theorem occurrences_of_notMem (hneedle : needle ≠ []) (hcs : ∀ c ∈ cs, c ∉ needle) :
    occurrences needle cs = 0 := by
  simpa using occurrences_append_left hneedle hcs []

/-- They may stand behind as well. -/
theorem occurrences_append_right (hneedle : needle ≠ []) (hb : ∀ c ∈ b, c ∉ needle)
    (cs : List Char) : occurrences needle (cs ++ b) = occurrences needle cs := by
  cases b with
  | nil => rw [List.append_nil]
  | cons c b =>
      rw [List.forall_mem_cons] at hb
      rw [occurrences_append_cons hneedle hb.1, occurrences_of_notMem hneedle hb.2, Nat.add_zero]

/-- A text with too few of the characters that are looked for. -/
theorem occurrences_of_count_lt {c : Char} (h : cs.count c < needle.count c) :
    occurrences needle cs = 0 := by
  have hneedle : needle ≠ [] := by
    rintro rfl
    cases h
  rw [occurrences_eq_zero_iff hneedle]
  intro hoccurs
  exact absurd (hoccurs.sublist.count_le c) (Nat.not_le.mpr h)

end Occurrences

section Parts

variable {needle : List Char} {sep : Char}

/-- How often something occurs in texts together. -/
def occurrencesIn (needle : List Char) (texts : List String) : Nat :=
  (texts.map fun text => occurrences needle text.toList).sum

@[simp] theorem occurrencesIn_nil (needle : List Char) : occurrencesIn needle [] = 0 := rfl

@[simp] theorem occurrencesIn_cons (needle : List Char) (text : String) (texts : List String) :
    occurrencesIn needle (text :: texts) =
      occurrences needle text.toList + occurrencesIn needle texts := rfl

@[simp] theorem occurrencesIn_singleton (needle : List Char) (text : String) :
    occurrencesIn needle [text] = occurrences needle text.toList := rfl

@[simp] theorem occurrencesIn_append (needle : List Char) (before after : List String) :
    occurrencesIn needle (before ++ after) =
      occurrencesIn needle before + occurrencesIn needle after := by
  simp [occurrencesIn]

theorem occurrencesIn_flatMap {α : Type} (needle : List Char) (f : α → List String)
    (items : List α) :
    occurrencesIn needle (items.flatMap f) =
      (items.map fun a => occurrencesIn needle (f a)).sum := by
  induction items with
  | nil => rfl
  | cons a rest ih => simp [ih]

theorem occurrencesIn_eq_zero_iff {texts : List String} :
    occurrencesIn needle texts = 0 ↔ ∀ text ∈ texts, occurrences needle text.toList = 0 := by
  induction texts with
  | nil => simp
  | cons text rest ih => rw [occurrencesIn_cons, Nat.add_eq_zero_iff, ih, List.forall_mem_cons]

end Parts

section Lines

variable {needle : List Char}

/-- The pieces of a text are what stands between the separators. -/
theorem intercalate_pieces (sep : Char) (cs : List Char) :
    [sep].intercalate (pieces (· == sep) cs) = cs := by
  induction cs with
  | nil => rfl
  | cons c cs ih =>
      cases hc : c == sep with
      | true =>
          obtain ⟨piece, rest, hcs⟩ := List.exists_cons_of_ne_nil (pieces_ne_nil (· == sep) cs)
          rw [hcs] at ih
          rw [pieces, if_pos hc, hcs, beq_iff_eq.mp hc]
          simpa [List.intercalate] using ih
      | false =>
          obtain ⟨piece, rest, hcs, hccs⟩ := @pieces_cons_of_not_cut (· == sep) c hc cs
          rw [hcs] at ih
          rw [hccs, ← ih]
          cases rest <;> simp [List.intercalate]

/-- What is looked for occurs in separated parts, and not between them. -/
theorem occurrences_intercalate (hneedle : needle ≠ []) {sep : Char} (hsep : sep ∉ needle)
    (parts : List (List Char)) :
    occurrences needle ([sep].intercalate parts) = (parts.map (occurrences needle)).sum := by
  induction parts with
  | nil => rfl
  | cons part rest ih =>
      cases rest with
      | nil => simp [List.intercalate]
      | cons next rest =>
          have hjoined : [sep].intercalate (part :: next :: rest) =
              part ++ sep :: [sep].intercalate (next :: rest) := by
            simp [List.intercalate]
          rw [hjoined, occurrences_append_cons hneedle hsep, ih]
          exact List.sum_cons.symm

theorem occurrences_dropReturn (hneedle : Visible needle) (line : List Char) :
    occurrences needle (dropReturn line) = occurrences needle line := by
  have hreturn : ∀ c ∈ ['\r'], c ∉ needle := by simpa using hneedle.notMem rfl
  rw [dropReturn]
  split
  · rename_i hlast
    obtain ⟨front, rfl⟩ := List.getLast?_eq_some_iff.mp (beq_iff_eq.mp hlast)
    rw [List.dropLast_concat, occurrences_append_right hneedle.ne_nil hreturn]
  · rfl

theorem sum_occurrences_linesOf (hneedle : Visible needle) (parts : List (List Char)) :
    ((linesOf parts).map (occurrences needle)).sum = (parts.map (occurrences needle)).sum := by
  induction parts using linesOf.induct with
  | case1 => rfl
  | case2 last hempty =>
      rw [List.isEmpty_iff] at hempty
      subst hempty
      rfl
  | case3 last hempty => simp [linesOf, hempty]
  | case4 line rest hmore ih =>
      rw [linesOf, List.map_cons, List.map_cons, List.sum_cons, List.sum_cons, ih,
        occurrences_dropReturn hneedle]
      exact hmore

/-- It occurs in the lines of a text as often as in the text. -/
theorem occurrencesIn_lines (hneedle : Visible needle) (s : String) :
    occurrencesIn needle (lines s) = occurrences needle s.toList := by
  have hfeed : '\n' ∉ needle := hneedle.notMem rfl
  conv_rhs => rw [← intercalate_pieces '\n' s.toList,
    occurrences_intercalate hneedle.ne_nil hfeed, ← sum_occurrences_linesOf hneedle]
  simp [occurrencesIn, lines, Function.comp_def]

theorem occurrences_trimFront (hneedle : Visible needle) (cs : List Char) :
    occurrences needle (trimFront cs) = occurrences needle cs := by
  have hfront : ∀ c ∈ cs.takeWhile isBlank, c ∉ needle :=
    fun c hc => hneedle.notMem (List.mem_takeWhile_imp hc)
  conv_rhs => rw [← List.takeWhile_append_dropWhile (p := isBlank) (l := cs)]
  rw [occurrences_append_left hneedle.ne_nil hfront, trimFront]

theorem occurrences_trimBack (hneedle : Visible needle) (cs : List Char) :
    occurrences needle (trimBack cs) = occurrences needle cs := by
  have hback : ∀ c ∈ (cs.reverse.takeWhile isBlank).reverse, c ∉ needle := by
    intro c hc
    rw [List.mem_reverse] at hc
    exact hneedle.notMem (List.mem_takeWhile_imp hc)
  have hparts : cs = trimBack cs ++ (cs.reverse.takeWhile isBlank).reverse := by
    rw [trimBack, ← List.reverse_append, List.takeWhile_append_dropWhile, List.reverse_reverse]
  conv_rhs => rw [hparts]
  rw [occurrences_append_right hneedle.ne_nil hback]

/-- Trimming a text takes nothing away that is looked for. -/
theorem occurrences_trim (hneedle : Visible needle) (s : String) :
    occurrences needle (trim s).toList = occurrences needle s.toList := by
  rw [toList_trim, occurrences_trimBack hneedle, occurrences_trimFront hneedle]

theorem occurrences_trimEnd (hneedle : Visible needle) (s : String) :
    occurrences needle (trimEnd s).toList = occurrences needle s.toList := by
  rw [trimEnd, String.toList_ofList, occurrences_trimBack hneedle]

end Lines

end Text

namespace Block

open Text

variable {needle : List Char}

theorem eq_blank_of_mem_margin {level : Nat} {c : Char} (hc : c ∈ (margin level).toList) :
    c = ' ' := by
  rw [margin, toList_intercalate_nothing, List.mem_flatMap] at hc
  obtain ⟨unit, hunit, hc⟩ := hc
  rw [List.eq_of_mem_replicate hunit] at hc
  simpa [indentUnit] using hc

theorem occurrences_lineText (hneedle : Visible needle) (level : Nat) (text : String)
    (after : List Char) :
    occurrences needle ((lineText level text).toList ++ after) =
      occurrences needle text.toList + occurrences needle after := by
  have hfeed : '\n' ∉ needle := hneedle.notMem rfl
  have hmargin : ∀ c ∈ (margin level).toList, c ∉ needle := by
    intro c hc
    rw [eq_blank_of_mem_margin hc]
    exact hneedle.notMem rfl
  have hend : ∀ cs : List Char, cs ++ "\n".toList ++ after = cs ++ '\n' :: after := by
    intro cs
    rw [List.append_assoc]
    rfl
  rw [lineText, String.toList_append, hend, occurrences_append_cons hneedle.ne_nil hfeed]
  split
  · rfl
  · rw [String.toList_append, occurrences_append_left hneedle.ne_nil hmargin]

mutual

theorem occurrences_textAt_append (hneedle : Visible needle) :
    ∀ (level : Nat) (b : Block) (after : List Char),
      occurrences needle ((textAt level b).toList ++ after) =
        occurrencesIn needle (linesIn b) + occurrences needle after
  | level, line text, after => by
      rw [textAt, occurrences_lineText hneedle, linesIn]
      rfl
  | _, blank, after => by
      rw [textAt, linesIn, occurrencesIn_nil, Nat.zero_add]
      exact occurrences_cons hneedle.ne_nil (hneedle.notMem rfl) after
  | level, nest body, after => by
      rw [textAt, linesIn, occurrences_textAllAt_append hneedle]

theorem occurrences_textAllAt_append (hneedle : Visible needle) :
    ∀ (level : Nat) (blocks : List Block) (after : List Char),
      occurrences needle ((textAllAt level blocks).toList ++ after) =
        occurrencesIn needle (linesInAll blocks) + occurrences needle after
  | _, [], after => by simp
  | level, b :: rest, after => by
      rw [textAllAt_cons, String.toList_append, List.append_assoc,
        occurrences_textAt_append hneedle, occurrences_textAllAt_append hneedle,
        linesInAll, occurrencesIn_append, Nat.add_assoc]

end

/-- What has no blanks in it occurs in a text as often as in its lines. -/
theorem occurrences_textAllAt (hneedle : Visible needle) (level : Nat) (blocks : List Block) :
    occurrences needle (textAllAt level blocks).toList =
      occurrencesIn needle (linesInAll blocks) := by
  simpa using occurrences_textAllAt_append hneedle level blocks []

end Block

namespace Literal

open Text

/-- What begins and ends a literal of several lines. -/
def tripleQuote : List Char := ['\"', '\"', '\"']

theorem visible_tripleQuote : Visible tripleQuote where
  ne_nil := by decide
  notBlank := List.all_iff_forall_prop.mp (by decide)

/-- How often three quotes in a row begin somewhere in a text. -/
def tripleQuotes (s : String) : Nat :=
  occurrences tripleQuote s.toList

/-- How many quotes a text has. -/
def quotes (s : String) : Nat :=
  s.toList.count '\"'

theorem quotes_append (a b : String) : quotes (a ++ b) = quotes a + quotes b := by
  rw [quotes, String.toList_append, List.count_append]
  rfl

theorem notMem_tripleQuote_of_quotes {s : String} (hs : quotes s = 0) :
    ∀ c ∈ s.toList, c ∉ tripleQuote := by
  rintro c hc hquote
  obtain rfl : c = '\"' := by simpa [tripleQuote] using hquote
  exact List.count_eq_zero.mp hs hc

theorem quotes_of_isWordChar {s : String} (hs : ∀ c ∈ s.toList, Naming.IsWordChar c) :
    quotes s = 0 := by
  rw [quotes, List.count_eq_zero]
  intro hmem
  cases hs _ hmem

theorem occurrences_of_few {s : String} (h : quotes s < 3) :
    occurrences tripleQuote s.toList = 0 :=
  occurrences_of_count_lt (c := '\"') h

theorem occurrencesIn_of_few {texts : List String} (h : ∀ text ∈ texts, quotes text < 3) :
    occurrencesIn tripleQuote texts = 0 :=
  occurrencesIn_eq_zero_iff.mpr fun text htext => occurrences_of_few (h text htext)

theorem tripleQuotes_append_cons {sep : Char} (hsep : sep ≠ '\"') (a b : List Char) :
    occurrences tripleQuote (a ++ sep :: b) =
      occurrences tripleQuote a + occurrences tripleQuote b :=
  occurrences_append_cons visible_tripleQuote.ne_nil (by simpa [tripleQuote] using hsep) a b

theorem tripleQuotes_cons {sep : Char} (hsep : sep ≠ '\"') (cs : List Char) :
    occurrences tripleQuote (sep :: cs) = occurrences tripleQuote cs :=
  occurrences_cons visible_tripleQuote.ne_nil (by simpa [tripleQuote] using hsep) cs

/-- Behind a quote there are no three quotes that were not there, unless two follow. -/
theorem tripleQuotes_quote {cs : List Char} (hcs : ¬ ['\"', '\"'] <+: cs) :
    occurrences tripleQuote ('\"' :: cs) = occurrences tripleQuote cs := by
  have hnot : ¬ tripleQuote <+: '\"' :: cs := by
    rw [tripleQuote, List.cons_prefix_cons]
    exact fun h => hcs h.2
  rw [occurrences, if_neg hnot, Nat.zero_add]

theorem escapeChar_cases (c : Char) :
    (∃ d, escapeChar c = ['\\', d]) ∨ escapeChar c = [c] ∧ c ≠ '\"' := by
  unfold escapeChar
  repeat' split
  · exact .inl ⟨_, rfl⟩
  · exact .inl ⟨_, rfl⟩
  · exact .inl ⟨_, rfl⟩
  · exact .inl ⟨_, rfl⟩
  · exact .inl ⟨_, rfl⟩
  · rename_i hquote _ _ _ _
    exact .inr ⟨rfl, hquote⟩

/-- The inside of a literal with the quote behind it: every other quote stands behind a backslash,
so there are never three in a row, nor two at the beginning. -/
theorem tripleQuotes_escaped (cs : List Char) :
    occurrences tripleQuote (cs.flatMap escapeChar ++ ['\"']) = 0 ∧
      ¬ ['\"', '\"'] <+: cs.flatMap escapeChar ++ ['\"'] := by
  induction cs with
  | nil => decide
  | cons c cs ih =>
      obtain ⟨hnone, hbegin⟩ := ih
      rw [List.flatMap_cons, List.append_assoc]
      rcases escapeChar_cases c with ⟨d, hescape⟩ | ⟨hescape, hc⟩
      · rw [hescape, List.cons_append, List.cons_append, List.nil_append]
        refine ⟨?_, by simp⟩
        rw [tripleQuotes_cons (by decide)]
        by_cases hd : d = '\"'
        · rw [hd, tripleQuotes_quote hbegin, hnone]
        · rw [tripleQuotes_cons hd, hnone]
      · rw [hescape, List.singleton_append, tripleQuotes_cons hc]
        exact ⟨hnone, by simp [Ne.symm hc]⟩

theorem occurrences_quote (s : String) : occurrences tripleQuote (quote s).toList = 0 := by
  obtain ⟨hnone, hbegin⟩ := tripleQuotes_escaped s.toList
  rw [toList_quote, tripleQuotes_quote hbegin, hnone]

theorem occurrences_listed {α : Type} {text : α → List Char} {items : List α}
    (hitems : ∀ a ∈ items, occurrences tripleQuote (text a) = 0) :
    occurrences tripleQuote (listed text items) = 0 := by
  have hfurther : ∀ (front : List Char) (rest : List α),
      occurrences tripleQuote front = 0 → (∀ a ∈ rest, occurrences tripleQuote (text a) = 0) →
        occurrences tripleQuote (front ++ further text rest) = 0 := by
    intro front rest
    induction rest generalizing front with
    | nil => exact fun hfront _ => by rwa [further, List.flatMap_nil, List.append_nil]
    | cons a rest ih =>
        intro hfront hrest
        rw [List.forall_mem_cons] at hrest
        rw [further, List.flatMap_cons, List.cons_append, tripleQuotes_append_cons (by decide),
          hfront, Nat.zero_add, List.cons_append, tripleQuotes_cons (by decide)]
        exact ih (text a) hrest.1 hrest.2
  cases items with
  | nil => rfl
  | cons a rest =>
      rw [List.forall_mem_cons] at hitems
      exact hfurther (text a) rest hitems.1 hitems.2

theorem occurrences_bracketed {opening closing : Char} (hopening : opening ≠ '\"')
    (hclosing : closing ≠ '\"') {cs : List Char} (hcs : occurrences tripleQuote cs = 0) :
    occurrences tripleQuote (opening :: (cs ++ [closing])) = 0 := by
  rw [tripleQuotes_cons hopening, tripleQuotes_append_cons hclosing, hcs]
  rfl

/-- A literal behind a text that has few quotes and ends in a blank. -/
theorem occurrences_around_literal {before lead literal after : String}
    (hbefore : quotes (before ++ lead) < 3) (hblank : lead.toList.getLast? = some ' ')
    (hliteral : occurrences tripleQuote literal.toList = 0) (hafter : quotes after = 0) :
    occurrences tripleQuote (before ++ lead ++ literal ++ after).toList = 0 := by
  have hlast : (before ++ lead).toList.getLast? = some ' ' := by
    rw [String.toList_append, List.getLast?_append, hblank, Option.some_or]
  obtain ⟨front, hfront⟩ := List.getLast?_eq_some_iff.mp hlast
  have hnone : occurrences tripleQuote front = 0 := by
    have h := occurrences_of_few hbefore
    rwa [hfront, tripleQuotes_append_cons (by decide), occurrences_nil, Nat.add_zero] at h
  rw [String.toList_append, String.toList_append, hfront, List.append_assoc, List.append_assoc,
    List.singleton_append, tripleQuotes_append_cons (by decide), hnone,
    occurrences_append_right visible_tripleQuote.ne_nil (notMem_tripleQuote_of_quotes hafter),
    hliteral]

/-- Three quotes in a row never occur in the literal of a value. -/
theorem occurrences_ofJson (v : Json) : occurrences tripleQuote (ofJson v).toList = 0 := by
  induction v using Json.induction_parts with
  | null => decide
  | bool b => cases b <;> decide
  | num n =>
      refine occurrences_of_notMem visible_tripleQuote.ne_nil fun c hc hquote => ?_
      have hnumeral := Numeral.isNumeralChar_of_mem_render hc
      rw [tripleQuote] at hquote
      obtain rfl : c = '\"' := by simpa using hquote
      revert hnumeral
      decide
  | str s => exact occurrences_quote s
  | arr items ih =>
      rw [toList_ofJson_arr]
      exact occurrences_bracketed (by decide) (by decide) (occurrences_listed ih)
  | obj members ih =>
      rw [toList_ofJson_obj]
      refine occurrences_bracketed (by decide) (by decide) (occurrences_listed fun m hm => ?_)
      rw [toList_ofMember, tripleQuotes_append_cons (by decide), occurrences_quote,
        tripleQuotes_cons (by decide), ih m hm]

end Literal

namespace DataType

/-- Nor in the literal of a default. -/
theorem occurrences_defaultLiteral (t : DataType) :
    Text.occurrences Literal.tripleQuote t.defaultLiteral.toList = 0 := by
  unfold defaultLiteral
  split
  · split
    · exact Literal.occurrences_quote _
    · exact Literal.occurrences_ofJson _
  · unfold zeroLiteral
    repeat' split
    all_goals decide

end DataType

end ServiceGen

import Mathlib.Data.List.Basic
import ServiceGen.Naming

/-!
What becomes of underscores, slashes and number signs in generated names: case mappings neither take
them away nor bring them in, and a pretty name has lost its underscores.
-/

namespace ServiceGen

namespace Text

/-- The image of no character of the run has the number `n`. -/
def CaseRun.Avoids (r : CaseRun) (n : Nat) : Prop :=
  r.last + r.shift < n ∨ n < r.first + r.shift

instance (r : CaseRun) (n : Nat) : Decidable (r.Avoids n) :=
  inferInstanceAs (Decidable (_ ∨ _))

theorem image?_ne_of_avoids {r : CaseRun} {n : Nat} (hr : r.Avoids n) (hn : 0 < n) (m : Nat) :
    r.image? m ≠ some n := by
  intro himage
  unfold CaseRun.image? at himage
  split at himage
  · rename_i hcovers
    simp only [Bool.and_eq_true, decide_eq_true_eq] at hcovers
    have hshift : (m + r.shift).toNat = n := Option.some.inj himage
    rcases hr with hbelow | habove
    · omega
    · omega
  · cases himage

theorem eq_toNat_of_ofNat {n : Nat} {u : Char} (hu : 0 < u.toNat) (h : Char.ofNat n = u) :
    n = u.toNat := by
  subst h
  by_cases hvalid : n.isValidChar
  · rw [Char.ofNat, dif_pos hvalid]
    rfl
  · rw [Char.ofNat, dif_neg hvalid] at hu
    cases hu

/-- A mapping whose runs and expansions do not lead to `u` does not lead to it from another
character. -/
theorem mem_mapCase {runs : List CaseRun} {expansions : List (Nat × List Nat)} {u c : Char}
    (hu : 0 < u.toNat) (hruns : ∀ r ∈ runs, r.Avoids u.toNat)
    (hexpansions : ∀ e ∈ expansions, u.toNat ∉ e.2) (h : u ∈ mapCase runs expansions c) :
    u = c := by
  unfold mapCase at h
  split at h
  · rename_i image hfind
    obtain ⟨n, hn, hofNat⟩ := List.mem_map.mp h
    rw [eq_toNat_of_ofNat hu hofNat] at hn
    exact absurd hn (hexpansions _ (List.mem_of_find?_eq_some hfind))
  · split at h
    · rename_i n hrun
      obtain ⟨r, hr, himage⟩ := List.exists_of_findSome?_eq_some hrun
      rw [eq_toNat_of_ofNat hu (List.mem_singleton.mp h).symm] at himage
      exact absurd himage (image?_ne_of_avoids (hruns r hr) hu _)
    · exact List.mem_singleton.mp h

/-- The characters that stand between the parts of names and of paths, and in front of comments. -/
def IsSeparator (u : Char) : Prop :=
  u = '_' ∨ u = '/' ∨ u = '#'

theorem IsSeparator.toNat_pos {u : Char} (hu : IsSeparator u) : 0 < u.toNat := by
  rcases hu with rfl | rfl | rfl <;> decide

theorem forall_ascii {P : Char → Prop} (h : ∀ n < 128, P (Char.ofNat n)) {c : Char}
    (hc : c.toNat < 128) : P c := by
  have hn := h c.toNat hc
  rwa [Char.ofNat_toNat] at hn

theorem IsSeparator.ascii {u : Char} (hu : IsSeparator u) : u.toNat < 128 := by
  rcases hu with rfl | rfl | rfl <;> decide

theorem mem_upperChar_iff {u c : Char} (hu : IsSeparator u) : u ∈ upperChar c ↔ u = c := by
  unfold upperChar
  -- the ASCII characters are tried one by one, and the tables lead to no separator
  split
  · rename_i hascii
    refine forall_ascii (P := fun c => u ∈ [c.toUpper] ↔ u = c) ?_ hascii
    rcases hu with rfl | rfl | rfl <;> decide
  · rename_i hascii
    have hruns : ∀ r ∈ upperRuns, r.Avoids u.toNat := by
      rcases hu with rfl | rfl | rfl <;> decide +kernel
    have hexpansions : ∀ e ∈ upperExpansions, u.toNat ∉ e.2 := by
      rcases hu with rfl | rfl | rfl <;> decide
    exact ⟨mem_mapCase hu.toNat_pos hruns hexpansions, fun heq => absurd (heq ▸ hu.ascii) hascii⟩

theorem mem_lowerChar_iff {u c : Char} (hu : IsSeparator u) : u ∈ lowerChar c ↔ u = c := by
  unfold lowerChar
  split
  · rename_i hascii
    refine forall_ascii (P := fun c => u ∈ [c.toLower] ↔ u = c) ?_ hascii
    rcases hu with rfl | rfl | rfl <;> decide
  · rename_i hascii
    have hruns : ∀ r ∈ lowerRuns, r.Avoids u.toNat := by
      rcases hu with rfl | rfl | rfl <;> decide +kernel
    have hexpansions : ∀ e ∈ lowerExpansions, u.toNat ∉ e.2 := by
      rcases hu with rfl | rfl | rfl <;> decide
    exact ⟨mem_mapCase hu.toNat_pos hruns hexpansions, fun heq => absurd (heq ▸ hu.ascii) hascii⟩

theorem mem_lowerFrom_iff {u : Char} (hu : IsSeparator u) (before cs : List Char) :
    u ∈ lowerFrom before cs ↔ u ∈ cs := by
  induction cs generalizing before with
  | nil => rfl
  | cons c rest ih =>
      rw [lowerFrom, List.mem_append, ih, List.mem_cons]
      refine or_congr_left ?_
      split
      · rename_i hsigma
        subst hsigma
        split <;> rcases hu with rfl | rfl | rfl <;> decide
      · exact mem_lowerChar_iff hu

theorem mem_lowerCase_iff {u : Char} (hu : IsSeparator u) (s : String) :
    u ∈ (lowerCase s).toList ↔ u ∈ s.toList := by
  rw [lowerCase, String.toList_ofList, mem_lowerFrom_iff hu]

theorem pieces_cons_of_not_cut {cut : Char → Bool} {c : Char} (hc : cut c = false)
    (cs : List Char) :
    ∃ piece rest, pieces cut cs = piece :: rest ∧ pieces cut (c :: cs) = (c :: piece) :: rest := by
  induction cs generalizing c with
  | nil => exact ⟨[], [], rfl, by simp [pieces, hc]⟩
  | cons d cs ih =>
      cases hd : cut d with
      | true => exact ⟨[], pieces cut cs, by simp [pieces, hd], by simp [pieces, hc, hd]⟩
      | false =>
          obtain ⟨piece, rest, -, hpieces⟩ := ih hd
          refine ⟨d :: piece, rest, hpieces, ?_⟩
          rw [pieces, hpieces]
          simp [hc]

theorem pieces_ne_nil (cut : Char → Bool) (cs : List Char) : pieces cut cs ≠ [] := by
  cases cs with
  | nil => exact List.cons_ne_nil _ _
  | cons c cs =>
      cases hc : cut c with
      | true => simp [pieces, hc]
      | false =>
          obtain ⟨piece, rest, -, hpieces⟩ := pieces_cons_of_not_cut hc cs
          rw [hpieces]
          exact List.cons_ne_nil _ _

/-- The pieces have all characters but those at which the text is cut. -/
theorem mem_pieces_iff (cut : Char → Bool) (c : Char) (cs : List Char) :
    (∃ piece ∈ pieces cut cs, c ∈ piece) ↔ c ∈ cs ∧ cut c = false := by
  induction cs with
  | nil => simp [pieces]
  | cons d cs ih =>
      cases hd : cut d with
      | true =>
          rw [pieces, if_pos hd, List.exists_mem_cons_iff, ih, List.mem_cons]
          constructor
          · rintro (hnil | ⟨hmem, hkeep⟩)
            · cases hnil
            · exact ⟨.inr hmem, hkeep⟩
          · rintro ⟨rfl | hmem, hkeep⟩
            · cases hd.symm.trans hkeep
            · exact .inr ⟨hmem, hkeep⟩
      | false =>
          obtain ⟨piece, rest, hcs, hdcs⟩ := pieces_cons_of_not_cut hd cs
          rw [hcs, List.exists_mem_cons_iff] at ih
          rw [hdcs, List.exists_mem_cons_iff, List.mem_cons, List.mem_cons, or_assoc, ih]
          constructor
          · rintro (rfl | ⟨hmem, hkeep⟩)
            · exact ⟨.inl rfl, hd⟩
            · exact ⟨.inr hmem, hkeep⟩
          · rintro ⟨rfl | hmem, hkeep⟩
            · exact .inl rfl
            · exact .inr ⟨hmem, hkeep⟩

end Text

namespace Naming

open Text

theorem mem_upperFirst_iff {u : Char} (hu : IsSeparator u) (s : String) :
    u ∈ (upperFirst s).toList ↔ u ∈ s.toList := by
  unfold upperFirst
  cases s.toList with
  | nil => simp
  | cons c cs => simp [mem_upperChar_iff hu]

/-- A pretty name has no underscore, and the slashes of the name. -/
theorem mem_pretty_iff {u : Char} (hu : IsSeparator u) (s : String) :
    u ∈ (pretty s).toList ↔ u ∈ s.toList ∧ u ≠ '_' := by
  have hpieces := mem_pieces_iff (· == '_') u s.toList
  rw [beq_eq_false_iff_ne] at hpieces
  rw [pretty, String.toList_join, splitAt, List.map_map, List.flatMap_map, List.mem_flatMap,
    ← hpieces]
  refine exists_congr fun piece => and_congr_right fun _ => ?_
  simp [mem_upperFirst_iff hu]

theorem mem_fileStem_iff {u : Char} (hu : IsSeparator u) (s : String) :
    u ∈ (fileStem s).toList ↔ u ∈ s.toList ∧ u ≠ '_' := by
  rw [fileStem, mem_lowerCase_iff hu, mem_pretty_iff hu]

theorem underscore_notMem_fileStem (s : String) : '_' ∉ (fileStem s).toList := by
  simp [mem_fileStem_iff (.inl rfl)]

theorem slash_notMem_fileStem {s : String} (hs : '/' ∉ s.toList) :
    '/' ∉ (fileStem s).toList := by
  simp [mem_fileStem_iff (.inr (.inl rfl)), hs]

theorem notMem_of_isIdentifier {s : String} (hs : isIdentifier s = true) {c : Char}
    (hc : (c == '_' || c.isAlphanum) = false) : c ∉ s.toList := by
  intro hmem
  unfold isIdentifier at hs
  cases hlist : s.toList with
  | nil => simp [hlist] at hmem
  | cons d ds =>
      rw [hlist] at hs hmem
      simp only [Bool.and_eq_true, List.all_eq_true] at hs
      rcases List.mem_cons.mp hmem with rfl | hmem
      · simp only [Char.isAlphanum, Bool.or_eq_false_iff] at hc
        simp [hc] at hs
      · exact Bool.false_ne_true (hc.symm.trans (hs.2 c hmem))

/-- The characters of identifiers. -/
def IsWordChar (c : Char) : Prop :=
  (c == '_' || c.isAlphanum) = true

instance : DecidablePred IsWordChar :=
  fun _ => inferInstanceAs (Decidable (_ = true))

theorem isWordChar_of_isIdentifier {s : String} (hs : isIdentifier s = true) :
    ∀ c ∈ s.toList, IsWordChar c := by
  intro c hc
  by_contra hnot
  exact notMem_of_isIdentifier hs (Bool.not_eq_true _ ▸ hnot) hc

theorem IsWordChar.ascii {c : Char} (hc : IsWordChar c) : c.toNat < 128 := by
  have hranges : (c == '_' ||
      ((decide (c.val ≥ 'A'.val ∧ c.val ≤ 'Z'.val) ||
        decide (c.val ≥ 'a'.val) && decide (c.val ≤ 'z'.val)) ||
        decide (c.val ≥ '0'.val) && decide (c.val ≤ '9'.val))) = true := hc
  simp only [Bool.or_eq_true, Bool.and_eq_true, decide_eq_true_eq, UInt32.le_iff_toNat_le,
    ge_iff_le, beq_iff_eq] at hranges
  have hA : c.toNat = c.val.toNat := rfl
  have hZ : 'Z'.val.toNat = 90 := rfl
  have hz : 'z'.val.toNat = 122 := rfl
  have h9 : '9'.val.toNat = 57 := rfl
  rcases hranges with rfl | hranges
  · decide
  · omega

theorem IsWordChar.toLower {c : Char} (hc : IsWordChar c) : IsWordChar c.toLower :=
  forall_ascii (P := fun c => IsWordChar c → IsWordChar c.toLower)
    (by unfold IsWordChar; decide) hc.ascii hc

theorem IsWordChar.toUpper {c : Char} (hc : IsWordChar c) : IsWordChar c.toUpper :=
  forall_ascii (P := fun c => IsWordChar c → IsWordChar c.toUpper)
    (by unfold IsWordChar; decide) hc.ascii hc

theorem isWordChar_of_mem_upperFirst {s : String} (hs : ∀ c ∈ s.toList, IsWordChar c) :
    ∀ c ∈ (upperFirst s).toList, IsWordChar c := by
  unfold upperFirst
  cases hlist : s.toList with
  | nil => simp
  | cons d ds =>
      rw [hlist, List.forall_mem_cons] at hs
      rw [String.toList_ofList, upperChar, if_pos hs.1.ascii, List.singleton_append,
        List.forall_mem_cons]
      exact ⟨hs.1.toUpper, hs.2⟩

/-- The pretty name of an identifier has no other characters than identifiers. -/
theorem isWordChar_of_mem_pretty {s : String} (hs : ∀ c ∈ s.toList, IsWordChar c) :
    ∀ c ∈ (pretty s).toList, IsWordChar c := by
  intro c hc
  rw [pretty, String.toList_join, splitAt, List.map_map, List.flatMap_map, List.mem_flatMap] at hc
  obtain ⟨piece, hpiece, hc⟩ := hc
  refine isWordChar_of_mem_upperFirst (s := .ofList piece) (fun d hd => hs d ?_) c hc
  rw [String.toList_ofList] at hd
  exact ((mem_pieces_iff (· == '_') d s.toList).mp ⟨piece, hpiece, hd⟩).1

section Snake

/-- The lower case of such characters is taken one by one. -/
theorem lowerFrom_of_isWordChar (before : List Char) {cs : List Char}
    (hcs : ∀ c ∈ cs, IsWordChar c) : lowerFrom before cs = cs.map Char.toLower := by
  induction cs generalizing before with
  | nil => rfl
  | cons c rest ih =>
      rw [List.forall_mem_cons] at hcs
      have hascii := hcs.1.ascii
      have hsigma : c ≠ 'Σ' := by
        rintro rfl
        revert hascii
        decide
      rw [lowerFrom, if_neg hsigma, lowerChar, if_pos hascii, ih _ hcs.2]
      rfl

theorem flatten_clustersFrom (s : ClusterState) (cs : List Char) :
    (clustersFrom s cs).flatten = cs := by
  induction cs generalizing s with
  | nil => rfl
  | cons c rest ih =>
      have hjoined := ih (.after (some s) c)
      have halone := ih (.after none c)
      rw [clustersFrom]
      split
      · cases hfrom : clustersFrom (.after (some s) c) rest <;> rw [hfrom] at hjoined <;>
          simpa using hjoined
      · cases hfrom : clustersFrom (.after none c) rest <;> rw [hfrom] at halone <;>
          simpa using halone

/-- The clusters of a text are the text. -/
theorem flatten_clusters (cs : List Char) : (clusters cs).flatten = cs := by
  cases cs with
  | nil => rfl
  | cons c rest =>
      have hrest := flatten_clustersFrom (.after none c) rest
      rw [clusters]
      cases hfrom : clustersFrom (.after none c) rest <;> rw [hfrom] at hrest <;> simpa using hrest

theorem wordsFrom_ne_nil (word gs : List (List Char)) : wordsFrom word gs ≠ [] := by
  induction gs generalizing word with
  | nil => simp [wordsFrom]
  | cons g rest ih =>
      rw [wordsFrom]
      simp only
      split
      · exact List.cons_ne_nil _ _
      · split
        · exact List.cons_ne_nil _ _
        · exact ih _

/-- The words of a name have no other characters than it. -/
theorem mem_of_mem_wordsFrom {word gs : List (List Char)} {w : List Char} {c : Char}
    (hw : w ∈ wordsFrom word gs) (hc : c ∈ w) : c ∈ word.flatten ∨ c ∈ gs.flatten := by
  induction gs generalizing word with
  | nil =>
      obtain rfl := List.mem_singleton.mp hw
      exact .inl (by simpa using hc)
  | cons g rest ih =>
      rw [List.flatten_cons, List.mem_append]
      rw [wordsFrom] at hw
      simp only at hw
      split at hw
      · rcases List.mem_cons.mp hw with rfl | hw
        · exact .inl (by simpa using hc)
        · exact .inr (.inr ((ih hw).resolve_left (by simp)))
      · split at hw
        · rcases List.mem_cons.mp hw with rfl | hw
          · rw [List.mem_flatten] at hc
            obtain ⟨part, hpart, hc⟩ := hc
            rcases List.mem_cons.mp (List.mem_reverse.mp hpart) with rfl | hpart
            · exact .inr (.inl hc)
            · exact .inl (List.mem_flatten.mpr ⟨part, hpart, hc⟩)
          · exact .inr (.inr ((ih hw).resolve_left (by simp)))
        · have h := ih hw
          rw [List.flatten_cons, List.mem_append] at h
          tauto

/-- A name that is one word is that word. -/
theorem eq_of_wordsFrom_eq_singleton {word gs : List (List Char)} {w : List Char}
    (h : wordsFrom word gs = [w]) : w = word.reverse.flatten ++ gs.flatten := by
  induction gs generalizing word with
  | nil =>
      obtain ⟨rfl, -⟩ := List.cons.inj h
      simp
  | cons g rest ih =>
      rw [wordsFrom] at h
      simp only at h
      split at h
      · exact absurd (List.cons.inj h).2 (wordsFrom_ne_nil _ _)
      · split at h
        · exact absurd (List.cons.inj h).2 (wordsFrom_ne_nil _ _)
        · rw [ih h]
          simp

theorem mem_intercalate {sep : String} {texts : List String} {c : Char}
    (hc : c ∈ (sep.intercalate texts).toList) :
    c ∈ sep.toList ∨ ∃ text ∈ texts, c ∈ text.toList := by
  induction texts with
  | nil => simp at hc
  | cons text rest ih =>
      cases rest with
      | nil => exact .inr ⟨text, List.mem_cons_self, by simpa using hc⟩
      | cons next rest =>
          rw [String.intercalate_cons_cons, String.toList_append, String.toList_append,
            List.mem_append, List.mem_append] at hc
          rcases hc with (hc | hc) | hc
          · exact .inr ⟨text, List.mem_cons_self, hc⟩
          · exact .inl hc
          · exact (ih hc).imp_right fun ⟨t, ht, hc⟩ => ⟨t, List.mem_cons_of_mem text ht, hc⟩

theorem lowerCase_of_isWordChar {w : List Char} (hw : ∀ c ∈ w, IsWordChar c) :
    lowerCase (.ofList w) = .ofList (w.map Char.toLower) := by
  rw [lowerCase, String.toList_ofList, lowerFrom_of_isWordChar [] hw]

section Identifier

variable {s : String}

theorem toList_ne_nil_of_isIdentifier (hs : isIdentifier s = true) : s.toList ≠ [] := by
  intro hnil
  rw [isIdentifier, hnil] at hs
  cases hs

theorem isWordChar_of_mem_words (hs : isIdentifier s = true) {w : List Char}
    (hw : w ∈ wordsFrom [] (clusters s.toList)) : ∀ c ∈ w, IsWordChar c := by
  intro c hc
  have hmem := (mem_of_mem_wordsFrom hw hc).resolve_left (by simp)
  rw [flatten_clusters] at hmem
  exact isWordChar_of_isIdentifier hs c hmem

theorem snake_eq (hs : isIdentifier s = true) :
    snake s =
      "_".intercalate ((wordsFrom [] (clusters s.toList)).map fun w => lowerCase (.ofList w)) := by
  rw [snake, if_neg]
  simpa [String.isEmpty_iff, ← String.toList_eq_nil_iff] using toList_ne_nil_of_isIdentifier hs

/-- One word is the whole identifier, and several have an underscore between them. -/
theorem snake_ne_empty (hs : isIdentifier s = true) : snake s ≠ "" := by
  rw [snake_eq hs]
  cases hwords : wordsFrom [] (clusters s.toList) with
  | nil => exact absurd hwords (wordsFrom_ne_nil _ _)
  | cons w rest =>
      cases rest with
      | nil =>
          have hw := eq_of_wordsFrom_eq_singleton hwords
          rw [flatten_clusters] at hw
          obtain rfl : w = s.toList := hw
          rw [List.map_singleton, String.intercalate_singleton,
            lowerCase_of_isWordChar (isWordChar_of_isIdentifier hs)]
          simpa [String.ofList_eq_empty_iff] using toList_ne_nil_of_isIdentifier hs
      | cons next rest =>
          intro hempty
          have hlength := congrArg String.length hempty
          simp [String.intercalate_cons_cons] at hlength

/-- The module name of an identifier has the characters of identifiers only. -/
theorem isWordChar_of_mem_snake (hs : isIdentifier s = true) :
    ∀ c ∈ (snake s).toList, IsWordChar c := by
  intro c hc
  rw [snake_eq hs] at hc
  rcases mem_intercalate hc with hc | ⟨text, htext, hc⟩
  · obtain rfl : c = '_' := by simpa using hc
    exact rfl
  · obtain ⟨w, hw, rfl⟩ := List.mem_map.mp htext
    have hchars := isWordChar_of_mem_words hs hw
    rw [lowerCase_of_isWordChar hchars, String.toList_ofList] at hc
    obtain ⟨d, hd, rfl⟩ := List.mem_map.mp hc
    exact (hchars d hd).toLower

end Identifier

end Snake

end Naming

end ServiceGen

import ServiceGen.Proofs.Files.Path
import ServiceGen.Proofs.Text.Search

/-!
Texts that are joined with a character between them are cut apart there again, when none of them has
it: `splitAt_intercalate` for names between points, and `lines_intercalate` for lines.
-/

namespace ServiceGen.Text

theorem pieces_flatMap {sep : Char} {text : List Char} {texts : List (List Char)}
    (htext : sep ∉ text) (htexts : ∀ t ∈ texts, sep ∉ t) :
    pieces (· == sep) (text ++ texts.flatMap (sep :: ·)) = text :: texts := by
  have hkeep : ∀ {t : List Char}, sep ∉ t → ∀ c ∈ t, (c == sep) = false := fun ht c hc =>
    beq_eq_false_iff_ne.mpr fun heq => ht (heq ▸ hc)
  induction texts generalizing text with
  | nil => rw [List.flatMap_nil, List.append_nil, pieces_of_forall (hkeep htext)]
  | cons next rest ih =>
      rw [List.forall_mem_cons] at htexts
      rw [List.flatMap_cons, List.cons_append, pieces_append_cons (by simp),
        pieces_of_forall (hkeep htext), ih htexts.1 htexts.2]
      rfl

theorem pieces_intercalate {sep : Char} {texts : List String} (hne : texts ≠ [])
    (htexts : ∀ t ∈ texts, sep ∉ t.toList) :
    pieces (· == sep) ((String.singleton sep).intercalate texts).toList =
      texts.map String.toList := by
  obtain ⟨text, rest, rfl⟩ := List.exists_cons_of_ne_nil hne
  rw [List.forall_mem_cons] at htexts
  have hrest : rest.flatMap (fun t => (String.singleton sep).toList ++ t.toList) =
      (rest.map String.toList).flatMap (sep :: ·) := by
    rw [List.flatMap_map]
    simp
  rw [toList_intercalate_cons, hrest, pieces_flatMap htexts.1 (by simpa using htexts.2),
    List.map_cons]

theorem splitAt_intercalate {sep : Char} {texts : List String} (hne : texts ≠ [])
    (htexts : ∀ t ∈ texts, sep ∉ t.toList) :
    splitAt sep ((String.singleton sep).intercalate texts) = texts := by
  rw [splitAt, pieces_intercalate hne htexts, List.map_map]
  simp

/-- Lines with a line feed behind each. -/
def unlines (lines : List String) : String :=
  "".intercalate (lines.map (· ++ "\n"))

theorem toList_unlines (lines : List String) :
    (unlines lines).toList = lines.flatMap fun line => line.toList ++ ['\n'] := by
  rw [unlines, toList_intercalate_nothing, List.flatMap_map]
  simp

@[simp] theorem unlines_nil : unlines [] = "" := rfl

@[simp] theorem unlines_cons (line : String) (rest : List String) :
    unlines (line :: rest) = line ++ "\n" ++ unlines rest := by
  rw [← String.toList_inj, String.toList_append, String.toList_append, toList_unlines,
    toList_unlines, List.flatMap_cons]
  rfl

theorem unlines_append (before after : List String) :
    unlines (before ++ after) = unlines before ++ unlines after := by
  rw [← String.toList_inj, String.toList_append, toList_unlines, toList_unlines, toList_unlines,
    List.flatMap_append]

/-- Cut at its line feeds, such a text has its lines again, and nothing behind the last one. -/
theorem splitAt_unlines {lines : List String} (hlines : ∀ line ∈ lines, '\n' ∉ line.toList) :
    splitAt '\n' (unlines lines) = lines ++ [""] := by
  induction lines with
  | nil => rfl
  | cons line rest ih =>
      rw [List.forall_mem_cons] at hlines
      have hkeep : ∀ c ∈ line.toList, (c == '\n') = false := fun c hc =>
        beq_eq_false_iff_ne.mpr fun heq => hlines.1 (heq ▸ hc)
      have hcons : (unlines (line :: rest)).toList = line.toList ++ '\n' :: (unlines rest).toList := by
        simp
      rw [splitAt, hcons, pieces_append_cons (by simp), pieces_of_forall hkeep, List.map_append,
        List.map_singleton, String.ofList_toList]
      exact congrArg (line :: ·) (ih hlines.2)

theorem linesOf_concat_nil (ps : List (List Char)) : linesOf (ps ++ [[]]) = ps.map dropReturn := by
  induction ps with
  | nil => rfl
  | cons p rest ih =>
      cases rest <;> simp_all [linesOf]

theorem dropReturn_of_notMem {line : List Char} (h : '\r' ∉ line) : dropReturn line = line := by
  have hlast : line.getLast? ≠ some '\r' := fun hlast => h (List.mem_of_getLast? hlast)
  simp [dropReturn, hlast]

/-- Lines with a line feed behind each are the lines of their text. -/
theorem lines_intercalate {texts : List String} (hne : texts ≠ [])
    (htexts : ∀ t ∈ texts, '\n' ∉ t.toList ∧ '\r' ∉ t.toList) :
    lines ("\n".intercalate texts ++ "\n") = texts := by
  have hlineFeed : "\n" = String.singleton '\n' := rfl
  have hpieces : pieces (· == '\n') ("\n".intercalate texts ++ "\n").toList =
      texts.map String.toList ++ [[]] := by
    rw [hlineFeed, String.toList_append, String.toList_singleton, pieces_append_cons (by simp),
      pieces_intercalate hne fun t ht => (htexts t ht).1]
    rfl
  rw [lines, hpieces, linesOf_concat_nil, List.map_map, List.map_map]
  refine (List.map_congr_left fun t ht => ?_).trans (List.map_id texts)
  rw [Function.comp_apply, Function.comp_apply, dropReturn_of_notMem (htexts t ht).2,
    String.ofList_toList, id]

end ServiceGen.Text

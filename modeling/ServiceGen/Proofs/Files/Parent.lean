import Mathlib.Data.List.TakeWhile
import ServiceGen.Proofs.Files.Path

/-!
The end of a path.  Where a component ends in the text decides what the path is cut off to: the
parent has all components but the last, and what is put in place of a file name, or behind it, goes
to the same directory.
-/

namespace ServiceGen

namespace Text

/-- The first piece ends at the end of the text, or where it is cut. -/
theorem pieces_eq_cons {cut : Char → Bool} {cs piece : List Char} {rest : List (List Char)}
    (h : pieces cut cs = piece :: rest) :
    (∀ c ∈ piece, cut c = false) ∧ (rest = [] ∧ cs = piece ∨
      ∃ sep after, cut sep = true ∧ cs = piece ++ sep :: after ∧ pieces cut after = rest) := by
  induction cs generalizing piece with
  | nil =>
      obtain ⟨rfl, rfl⟩ := List.cons.inj h
      exact ⟨nofun, .inl ⟨rfl, rfl⟩⟩
  | cons c cs ih =>
      cases hc : cut c with
      | true =>
          rw [pieces, hc] at h
          obtain ⟨rfl, rfl⟩ := List.cons.inj h
          exact ⟨nofun, .inr ⟨c, cs, hc, rfl, rfl⟩⟩
      | false =>
          obtain ⟨piece', rest', hcs, hccs⟩ := pieces_cons_of_not_cut hc cs
          rw [hccs] at h
          obtain ⟨rfl, rfl⟩ := List.cons.inj h
          obtain ⟨hpiece, hends⟩ := ih hcs
          refine ⟨List.forall_mem_cons.mpr ⟨hc, hpiece⟩, hends.imp ?_ ?_⟩
          · rintro ⟨rfl, rfl⟩
            exact ⟨rfl, rfl⟩
          · rintro ⟨sep, after, hsep, rfl, hafter⟩
            exact ⟨sep, after, hsep, rfl, hafter⟩

/-- The length of pieces with a separator behind each. -/
def width : List (List Char) → Nat
  | [] => 0
  | piece :: rest => piece.length + 1 + width rest

section Place

variable {cut : Char → Bool} {cs piece : List Char} {before after : List (List Char)}

/-- Up to the end of a piece the text has the pieces up to that one. -/
theorem pieces_take (h : pieces cut cs = before ++ piece :: after) :
    pieces cut (cs.take (width before + piece.length)) = before ++ [piece] := by
  induction before generalizing cs with
  | nil =>
      obtain ⟨hpiece, ⟨-, rfl⟩ | ⟨sep, rest, -, rfl, -⟩⟩ := pieces_eq_cons h
      · simpa [width] using pieces_of_forall hpiece
      · simpa [width] using pieces_of_forall hpiece
  | cons first before ih =>
      obtain ⟨hfirst, ⟨hnil, -⟩ | ⟨sep, rest, hsep, rfl, hrest⟩⟩ := pieces_eq_cons h
      · simp at hnil
      · have hwidth : width (first :: before) + piece.length =
            first.length + (1 + (width before + piece.length)) := by
          simp [width]
          omega
        rw [hwidth, List.take_length_add_append, Nat.add_comm 1, List.take_succ_cons,
          pieces_append_cons hsep, pieces_of_forall hfirst, ih hrest]
        rfl

/-- The last piece ends where the text ends. -/
theorem length_of_pieces (h : pieces cut cs = before ++ [piece]) :
    cs.length = width before + piece.length := by
  induction before generalizing cs with
  | nil =>
      obtain ⟨-, ⟨-, rfl⟩ | ⟨sep, rest, -, -, hrest⟩⟩ := pieces_eq_cons h
      · simp [width]
      · exact absurd hrest (pieces_ne_nil cut rest)
  | cons first before ih =>
      obtain ⟨-, ⟨hnil, -⟩ | ⟨sep, rest, -, rfl, hrest⟩⟩ := pieces_eq_cons h
      · simp at hnil
      · have hrest := ih hrest
        simp only [List.length_append, List.length_cons, width]
        omega

end Place

end Text

namespace Path

open Text

theorem placedFrom_append (first : Bool) (start : Nat) (ps qs : List (List Char)) :
    placedFrom first start (ps ++ qs) =
      placedFrom first start ps ++ placedFrom (first && ps.isEmpty) (start + width ps) qs := by
  induction ps generalizing first start with
  | nil => simp [placedFrom, width]
  | cons piece rest ih =>
      have hstart : start + piece.length + 1 + width rest = start + width (piece :: rest) := by
        simp [width]
        omega
      simp [placedFrom, ih, hstart]

/-- A component stands for a piece, and the components before it for the pieces before that. -/
theorem exists_piece_of_placedFrom {first : Bool} {start stop : Nat} {ps : List (List Char)}
    {before after : List (Component × Nat)} {c : Component}
    (h : placedFrom first start ps = before ++ (c, stop) :: after) :
    ∃ qs piece rs, ps = qs ++ piece :: rs ∧ placedFrom first start qs = before ∧
      componentOf? (first && qs.isEmpty) piece = some c ∧
        stop = start + (width qs + piece.length) := by
  induction ps generalizing first start before with
  | nil => simp [placedFrom] at h
  | cons piece rest ih =>
      rw [placedFrom] at h
      cases hc : componentOf? first piece with
      | none =>
          rw [hc] at h
          obtain ⟨qs, found, rs, rfl, hqs, hfound, rfl⟩ := ih h
          refine ⟨piece :: qs, found, rs, rfl, ?_, by simpa using hfound, ?_⟩
          · rw [placedFrom, hc, hqs]
            rfl
          · simp [width]
            omega
      | some d =>
          rw [hc] at h
          cases before with
          | nil =>
              obtain ⟨hd, -⟩ := List.cons.inj h
              obtain ⟨rfl, rfl⟩ := Prod.mk.inj hd
              exact ⟨[], piece, rest, rfl, rfl, by simpa using hc, by simp [width]⟩
          | cons head before =>
              obtain ⟨rfl, hrest⟩ := List.cons.inj h
              obtain ⟨qs, found, rs, rfl, hqs, hfound, rfl⟩ := ih hrest
              refine ⟨piece :: qs, found, rs, rfl, ?_, by simpa using hfound, ?_⟩
              · rw [placedFrom, hc, hqs]
                rfl
              · simp [width]
                omega

/-- Cut off at the end of the piece that a component stands for, a path has the components up to
that one. -/
theorem components_upTo_piece {p : Path} {before after : List (Component × Nat)} {c : Component}
    {stop : Nat}
    (h : placedFrom true 0 (pieces (· == '/') p.text.toList) = before ++ (c, stop) :: after) :
    (p.upTo stop).components =
      (if p.isAbsolute then [.root] else []) ++ (before.map (·.1) ++ [c]) := by
  obtain ⟨qs, piece, rs, hpieces, rfl, hpiece, rfl⟩ := exists_piece_of_placedFrom h
  have hne : piece ≠ [] := by
    rintro rfl
    simp [componentOf?] at hpiece
  have hpos : 0 + (width qs + piece.length) ≠ 0 := by
    have := List.length_pos_iff.mpr hne
    omega
  have habsolute : (p.upTo (0 + (width qs + piece.length))).isAbsolute = p.isAbsolute := by
    rw [isAbsolute, upTo, String.toList_ofList, List.head?_take, if_neg hpos, isAbsolute]
  rw [components_eq, habsolute, upTo, String.toList_ofList, Nat.zero_add, pieces_take hpieces,
    ofPieces_append, map_fst_placedFrom, ofPieces, hpiece, ofPieces]
  rfl

theorem components_root : (⟨"/"⟩ : Path).components = [.root] := by decide

/-- Cut off where a component ends, a path has the components up to that one. -/
theorem components_upTo {p : Path} {before after : List (Component × Nat)} {c : Component}
    {stop : Nat} (h : p.placed = before ++ (c, stop) :: after) :
    (p.upTo stop).components = before.map (·.1) ++ [c] := by
  rw [placed] at h
  cases habsolute : p.isAbsolute with
  | false =>
      rw [habsolute] at h
      rw [components_upTo_piece h, habsolute]
      rfl
  | true =>
      rw [habsolute] at h
      cases before with
      | nil =>
          obtain ⟨hroot, -⟩ := List.cons.inj h
          obtain ⟨rfl, rfl⟩ := Prod.mk.inj hroot
          obtain ⟨cs, hcs⟩ := List.head?_eq_some_iff.mp (beq_iff_eq.mp habsolute)
          have hcut : p.upTo 1 = ⟨"/"⟩ := by
            rw [upTo, hcs]
            rfl
          rw [hcut, components_root]
          rfl
      | cons head before =>
          obtain ⟨rfl, hrest⟩ := List.cons.inj h
          rw [components_upTo_piece hrest, habsolute]
          rfl

/-- The parent has all components but the last. -/
theorem components_parent {p q : Path} (h : p.parent? = some q) :
    q.components = p.components.dropLast := by
  rw [parent?] at h
  split at h
  · cases h
  · cases h
  · rename_i hlast
    obtain rfl := Option.some.inj h
    rw [components.eq_1 p, List.reverse_eq_cons_iff.mp hlast]
    rfl
  · rename_i last c stop before _ hlast
    obtain rfl := Option.some.inj h
    have hplaced : p.placed = before.reverse ++ (c, stop) :: [last] := by
      rw [List.reverse_eq_cons_iff.mp hlast]
      simp
    rw [components_upTo hplaced, components, hplaced, List.map_append,
      List.dropLast_append_of_ne_nil (by simp)]
    rfl

/-- A path that ends with a file name has a parent. -/
theorem exists_parent {p : Path} (h : p.fileName?.isSome = true) :
    ∃ q, p.parent? = some q ∧ q.components = p.components.dropLast := by
  suffices hparent : ∃ q, p.parent? = some q by
    obtain ⟨q, hq⟩ := hparent
    exact ⟨q, hq, components_parent hq⟩
  rw [parent?]
  split
  · rename_i hnil
    rw [fileName?, components, List.reverse_eq_nil_iff.mp hnil] at h
    cases h
  · rename_i hroot
    rw [fileName?, components, List.reverse_eq_cons_iff.mp hroot] at h
    simp at h
  · exact ⟨_, rfl⟩
  · exact ⟨_, rfl⟩

/-- Another file name goes to the same directory. -/
theorem components_withFileName {p : Path} {part : String} (hp : p.fileName?.isSome = true)
    (hpart : IsFileName part) :
    (p.withFileName part).components = p.components.dropLast ++ [.name part] := by
  obtain ⟨q, hparent, hq⟩ := exists_parent hp
  rw [withFileName, if_pos hp, hparent, Option.getD_some, components_push hpart, hq]

/-- A file name behind a path is the last piece. -/
theorem exists_pieces_push {part : String} (hpart : IsFileName part) (p : Path) :
    ∃ before, pieces (· == '/') (p.push part).text.toList = before ++ [part.toList] := by
  by_cases hp : p.text = ""
  · refine ⟨[], ?_⟩
    rw [push, join, hp, String.empty_append]
    simpa using pieces_fileName hpart
  · obtain ⟨cs, htext, -⟩ := exists_join_text hp (not_isAbsolute_fileName hpart)
    refine ⟨pieces (· == '/') cs, ?_⟩
    rw [push, htext, pieces_append_cons (by simp), pieces_fileName hpart]

/-- A file name behind a path ends where the text ends. -/
theorem placed_push_getLast {part : String} (hpart : IsFileName part) (p : Path) :
    (p.push part).placed.getLast? = some (.name part, (p.push part).text.length) := by
  obtain ⟨before, hpieces⟩ := exists_pieces_push hpart p
  have hlength := length_of_pieces hpieces
  rw [String.length_toList] at hlength
  rw [placed, hpieces, placedFrom_append, placedFrom, componentOf?_fileName hpart, hlength,
    Nat.zero_add]
  simp [placedFrom]

/-- A file name behind a path is placed behind the components of that path. -/
theorem exists_placed_push {part : String} (hpart : IsFileName part) (p : Path) :
    ∃ stop, (p.push part).placed = p.placed ++ [(.name part, stop)] := by
  by_cases hp : p.text = ""
  · obtain rfl : p = empty := congrArg Path.mk hp
    have hempty : empty.placed = [] := by decide
    refine ⟨0 + part.toList.length, ?_⟩
    rw [empty_push, placed, not_isAbsolute_fileName hpart, pieces_fileName hpart, placedFrom,
      componentOf?_fileName hpart, hempty]
    rfl
  · obtain ⟨cs, htext, hcs⟩ := exists_join_text hp (not_isAbsolute_fileName hpart)
    have habsolute : (p.push part).isAbsolute = p.isAbsolute := by
      rw [Bool.eq_iff_iff, isAbsolute_iff, isAbsolute_iff, components_push hpart]
      cases p.components <;> simp
    have hplaced : placedFrom true 0 (pieces (· == '/') p.text.toList) =
        placedFrom true 0 (pieces (· == '/') cs) := by
      rcases hcs with hcs | hcs
      · rw [hcs]
      · rw [hcs, pieces_append_cons (by simp), placedFrom_append]
        simp [pieces, placedFrom, componentOf?]
    have hne : (pieces (· == '/') cs).isEmpty = false := by simpa using pieces_ne_nil _ cs
    refine ⟨0 + width (pieces (· == '/') cs) + part.toList.length, ?_⟩
    rw [placed, placed, habsolute, hplaced, List.append_assoc, push, htext,
      pieces_append_cons (by simp), pieces_fileName hpart, placedFrom_append, hne, placedFrom,
      componentOf?_fileName hpart]
    rfl

/-- The parent of a file in a directory that has a name is the directory as it was written. -/
theorem parent?_push_push {part other : String} (hpart : IsFileName part)
    (hother : IsFileName other) (p : Path) :
    ((p.push part).push other).parent? = some (p.push part) := by
  obtain ⟨stop, hplaced⟩ := exists_placed_push hother (p.push part)
  obtain ⟨before, hbefore⟩ := List.getLast?_eq_some_iff.mp (placed_push_getLast hpart p)
  obtain ⟨rest, hrest⟩ := exists_push_text hother (p.push part)
  have hcut : ((p.push part).push other).upTo (p.push part).text.length = p.push part := by
    rw [upTo, hrest, String.toList_append, ← String.length_toList, List.take_left,
      String.ofList_toList]
  rw [parent?, hplaced, hbefore, List.reverse_append, List.reverse_append]
  exact congrArg some hcut

theorem parent?_empty_push {part : String} (hpart : IsFileName part) :
    (empty.push part).parent? = some empty := by
  obtain ⟨stop, hplaced⟩ := exists_placed_push hpart empty
  have hempty : empty.placed = [] := by decide
  rw [parent?, hplaced, hempty]
  rfl

/-- The parent of a file in directories that have names is the last of these. -/
theorem parent?_foldl_push {names : List String} {part : String}
    (hnames : ∀ name ∈ names, IsFileName name) (hpart : IsFileName part) :
    ((names.foldl push empty).push part).parent? = some (names.foldl push empty) := by
  rcases List.eq_nil_or_concat' names with rfl | ⟨init, last, rfl⟩
  · exact parent?_empty_push hpart
  · rw [List.foldl_concat]
    exact parent?_push_push (hnames last (by simp)) hpart _

/-- In directories that have names, another file name is put where the one before was. -/
theorem withFileName_foldl_push {names : List String} {part : String}
    (hnames : ∀ name ∈ names, IsFileName name) (hpart : IsFileName part) (other : String) :
    ((names.foldl push empty).push part).withFileName other =
      (names.foldl push empty).push other := by
  rw [withFileName, fileName?_push hpart, parent?_foldl_push hnames hpart]
  rfl

/-- Without a point, a name is all stem. -/
theorem stemLength_of_notMem {name : List Char} (hname : '.' ∉ name) :
    stemLength name = name.length := by
  have hrest : name.reverse.dropWhile (· != '.') = [] := by
    rw [List.dropWhile_eq_nil_iff]
    intro c hc
    have hne : c ≠ '.' := fun heq => hname (heq ▸ List.mem_reverse.mp hc)
    simpa using hne
  rw [stemLength, hrest]
  simp

theorem upTo_length (p : Path) : p.upTo p.text.length = p := by
  rw [upTo, ← String.length_toList, List.take_length, String.ofList_toList]

/-- What is put behind a file name is put behind the path. -/
theorem push_append {part : String} (hpart : IsFileName part) (p : Path) (ending : String) :
    p.push (part ++ ending) = ⟨(p.push part).text ++ ending⟩ := by
  have hrelative := not_isAbsolute_fileName hpart
  have hlonger : (⟨part ++ ending⟩ : Path).isAbsolute = false := by
    obtain ⟨c, cs, hcs⟩ := List.exists_cons_of_ne_nil fun hnil =>
      hpart.2.1 (String.toList_eq_nil_iff.mp hnil)
    rw [isAbsolute, hcs] at hrelative
    rw [isAbsolute, String.toList_append, hcs]
    exact hrelative
  rw [push, push, join, join, hrelative, hlonger]
  simp only [Bool.false_eq_true, if_false]
  split <;> simp [String.append_assoc]

/-- Behind a file name without one, an extension is put at the end. -/
theorem withExtension_push {part : String} (hpart : IsFileName part) (hpoint : '.' ∉ part.toList)
    (p : Path) (extension : String) :
    (p.push part).withExtension extension = p.push (part ++ ("." ++ extension)) := by
  have hstem := stemLength_of_notMem hpoint
  rw [String.length_toList] at hstem
  have hlength : part.length ≤ (p.push part).text.length := by
    obtain ⟨before, hpieces⟩ := exists_pieces_push hpart p
    have hlength := length_of_pieces hpieces
    rw [String.length_toList, String.length_toList] at hlength
    omega
  rw [withExtension, cutExtension, fileName?_push hpart, push_append hpart]
  simp only [hstem]
  rw [Nat.sub_self, Nat.zero_sub, Nat.sub_zero, upTo_length, putExtension,
    placed_push_getLast hpart]
  simp only [hstem]
  rw [Nat.sub_add_cancel hlength, upTo_length, String.append_assoc]

end Path

end ServiceGen

import Mathlib.Data.List.Nodup
import Mathlib.Data.List.Perm.Basic
import ServiceGen.Files.Path
import ServiceGen.Proofs.Naming

/-!
What a path becomes when a file name, or another path, is put behind it: its components are followed
by those of the other.  At the end stands when items are distinct that each bring a companion, as
modules do that are written next to others.
-/

namespace ServiceGen

namespace Text

theorem pieces_of_forall {cut : Char → Bool} {cs : List Char} (h : ∀ c ∈ cs, cut c = false) :
    pieces cut cs = [cs] := by
  induction cs with
  | nil => rfl
  | cons c cs ih =>
      rw [List.forall_mem_cons] at h
      rw [pieces, h.1, ih h.2]
      rfl

theorem pieces_append_cons {cut : Char → Bool} {sep : Char} (hsep : cut sep = true)
    (cs ds : List Char) : pieces cut (cs ++ sep :: ds) = pieces cut cs ++ pieces cut ds := by
  induction cs with
  | nil => simp [pieces, hsep]
  | cons c cs ih =>
      cases hc : cut c with
      | true => simp [pieces, hc, ih]
      | false =>
          obtain ⟨piece, rest, hcs, hccs⟩ := pieces_cons_of_not_cut hc cs
          rw [List.cons_append, pieces, ih, hcs, hccs]
          simp [hc]

end Text

namespace Path

open Text

/-- The components of pieces. -/
def ofPieces (first : Bool) : List (List Char) → List Component
  | [] => []
  | piece :: rest => (componentOf? first piece).toList ++ ofPieces false rest

theorem map_fst_placedFrom (first : Bool) (start : Nat) (ps : List (List Char)) :
    (placedFrom first start ps).map (·.1) = ofPieces first ps := by
  induction ps generalizing first start with
  | nil => rfl
  | cons piece rest ih =>
      rw [placedFrom, List.map_append, ih, ofPieces]
      cases componentOf? first piece <;> rfl

theorem ofPieces_append (first : Bool) (ps qs : List (List Char)) :
    ofPieces first (ps ++ qs) = ofPieces first ps ++ ofPieces (first && ps.isEmpty) qs := by
  induction ps generalizing first with
  | nil => simp [ofPieces]
  | cons piece rest ih => simp [ofPieces, ih]

theorem components_eq (p : Path) :
    p.components = (if p.isAbsolute then [.root] else []) ++
      ofPieces true (pieces (· == '/') p.text.toList) := by
  rw [components, placed, List.map_append, map_fst_placedFrom]
  split <;> rfl

/-- A text that is the name of a file. -/
def IsFileName (part : String) : Prop :=
  '/' ∉ part.toList ∧ part ≠ "" ∧ part ≠ "." ∧ part ≠ ".."

theorem isFileName_append {text : String} (ending : String) (htext : '/' ∉ text.toList)
    (hending : '/' ∉ ending.toList) (hlength : 2 < ending.length) :
    IsFileName (text ++ ending) := by
  have hne : ∀ other : String, other.length ≤ 2 → text ++ ending ≠ other := by
    intro other hother heq
    have hlen := congrArg String.length heq
    rw [String.length_append] at hlen
    omega
  refine ⟨?_, hne "" (by decide), hne "." (by decide), hne ".." (by decide)⟩
  simp [htext, hending]

/-- What has the characters of identifiers only is the name of a file, without a point in it. -/
theorem isFileName_of_isWordChar {part : String} (hne : part ≠ "")
    (hpart : ∀ c ∈ part.toList, Naming.IsWordChar c) : IsFileName part ∧ '.' ∉ part.toList := by
  have hpoint : '.' ∉ part.toList := fun hmem => absurd (hpart _ hmem) (by decide)
  have hslash : '/' ∉ part.toList := fun hmem => absurd (hpart _ hmem) (by decide)
  refine ⟨⟨hslash, hne, ?_, ?_⟩, hpoint⟩ <;> rintro rfl <;> simp at hpoint

theorem componentOf?_fileName {part : String} (hpart : IsFileName part) (first : Bool) :
    componentOf? first part.toList = some (.name part) := by
  obtain ⟨-, hempty, hdot, hdots⟩ := hpart
  have hne : ∀ text : String, part ≠ text → part.toList ≠ text.toList := fun text hne heq =>
    hne (String.toList_injective heq)
  unfold componentOf?
  split
  · rename_i h
    exact absurd h (hne "" hempty)
  · rename_i h
    exact absurd h (hne "." hdot)
  · rename_i h
    exact absurd h (hne ".." hdots)
  · simp

theorem pieces_fileName {part : String} (hpart : IsFileName part) :
    pieces (· == '/') part.toList = [part.toList] :=
  pieces_of_forall fun c hc => by
    have hne : c ≠ '/' := fun heq => hpart.1 (heq ▸ hc)
    simpa using hne

theorem not_isAbsolute_fileName {part : String} (hpart : IsFileName part) :
    (⟨part⟩ : Path).isAbsolute = false := by
  cases hcs : part.toList with
  | nil => simp [isAbsolute, hcs]
  | cons c cs =>
      have hne : c ≠ '/' := fun heq => hpart.1 (by simp [hcs, heq])
      simpa [isAbsolute, hcs] using hne

/-- A file name alone is one component. -/
theorem components_fileName {part : String} (hpart : IsFileName part) :
    (⟨part⟩ : Path).components = [.name part] := by
  rw [components_eq, not_isAbsolute_fileName hpart, pieces_fileName hpart]
  simp [ofPieces, componentOf?_fileName hpart]

theorem here_notMem_ofPieces (ps : List (List Char)) : .here ∉ ofPieces false ps := by
  induction ps with
  | nil => simp [ofPieces]
  | cons piece rest ih =>
      rw [ofPieces, List.mem_append, not_or]
      refine ⟨?_, ih⟩
      unfold componentOf?
      split <;> simp

/-- Behind other pieces a dot is no component. -/
theorem ofPieces_false (ps : List (List Char)) :
    ofPieces false ps = (ofPieces true ps).filter (· ≠ .here) := by
  cases ps with
  | nil => rfl
  | cons piece rest =>
      have hrest : (ofPieces false rest).filter (· ≠ .here) = ofPieces false rest :=
        List.filter_eq_self.mpr fun c hc => by
          have hne : c ≠ .here := fun heq => here_notMem_ofPieces rest (heq ▸ hc)
          simpa using hne
      rw [ofPieces, ofPieces, List.filter_append, hrest]
      congr 1
      unfold componentOf?
      split <;> simp

/-- What is put behind a path stands behind a slash, which may have ended the path before. -/
theorem exists_join_text {p q : Path} (hp : p.text ≠ "") (hq : q.isAbsolute = false) :
    ∃ cs, (p.join q).text.toList = cs ++ '/' :: q.text.toList ∧
      (p.text.toList = cs ∨ p.text.toList = cs ++ ['/']) := by
  rw [join, hq, if_neg (by simp)]
  by_cases hslash : p.text.toList.getLast? = some '/'
  · obtain ⟨cs, hcs⟩ := List.getLast?_eq_some_iff.mp hslash
    rw [if_pos (by simp [hslash])]
    exact ⟨cs, by simp [hcs], .inr hcs⟩
  · rw [if_neg (by simp [hp, hslash])]
    exact ⟨p.text.toList, by simp, .inl rfl⟩

/-- The components of a path continued by another one. -/
theorem components_join (p q : Path) :
    (p.join q).components =
      if q.isAbsolute = true ∨ p.text = "" then q.components
      else p.components ++ q.components.filter (· ≠ .here) := by
  split
  · rename_i h
    rcases h with hq | hp
    · rw [join, if_pos hq]
    · rw [join, hp, String.empty_append]
      simp
  · rename_i h
    rw [not_or, Bool.not_eq_true] at h
    obtain ⟨hq, hp⟩ := h
    obtain ⟨cs, htext, hcs⟩ := exists_join_text hp hq
    have hne : (pieces (· == '/') cs).isEmpty = false := by simpa using pieces_ne_nil _ cs
    have hnonempty : p.text.toList ≠ [] := fun hnil => hp (String.toList_eq_nil_iff.mp hnil)
    have habsolute : (p.join q).isAbsolute = p.isAbsolute := by
      rw [isAbsolute, isAbsolute, htext]
      rcases hcs with hcs | hcs <;> rw [hcs] at hnonempty ⊢ <;> cases cs <;> simp at hnonempty ⊢
    have hpieces : ofPieces true (pieces (· == '/') p.text.toList) =
        ofPieces true (pieces (· == '/') cs) := by
      rcases hcs with hcs | hcs
      · rw [hcs]
      · rw [hcs, pieces_append_cons (by simp), ofPieces_append]
        simp [pieces, ofPieces, componentOf?]
    rw [components_eq, components_eq p, components_eq q, hq, habsolute, htext,
      pieces_append_cons (by simp), ofPieces_append, hne, Bool.and_false, ofPieces_false, hpieces,
      List.append_assoc]
    rfl

@[simp] theorem empty_push (part : String) : empty.push part = ⟨part⟩ := by
  rw [push, join]
  split
  · rfl
  · simp [empty]

/-- What is put behind a path that is not empty depends on how that path ends. -/
theorem push_of_ne_empty {p : Path} (hp : p.text ≠ "") {part : String} (hpart : IsFileName part) :
    p.push part =
      ⟨p.text ++ if p.text.toList.getLast? = some '/' then part else "/" ++ part⟩ := by
  rw [push, join, not_isAbsolute_fileName hpart]
  by_cases hslash : p.text.toList.getLast? = some '/'
  · simp [hslash]
  · simp [hp, hslash, String.append_assoc]

/-- A path that is continued by a file name begins as it did. -/
theorem exists_push_text {part : String} (hpart : IsFileName part) (p : Path) :
    ∃ rest, (p.push part).text = p.text ++ rest := by
  by_cases hp : p.text = ""
  · exact ⟨(p.push part).text, by rw [hp, String.empty_append]⟩
  · exact ⟨_, by rw [push_of_ne_empty hp hpart]⟩

/-- A file name stands behind both of two paths that are joined. -/
theorem join_push {part : String} (hpart : IsFileName part) (p q : Path) :
    p.join (q.push part) = (p.join q).push part := by
  by_cases hq : q.text = ""
  · obtain rfl : q = empty := congrArg Path.mk hq
    have hrelative : empty.isAbsolute = false := rfl
    have hpart' := not_isAbsolute_fileName hpart
    rw [empty_push, push, join, join, join, hrelative, hpart']
    simp only [Bool.false_eq_true, if_false]
    split
    · simp_all [empty]
    · simp [empty]
  · obtain ⟨c, cs, hcs⟩ := List.exists_cons_of_ne_nil fun hnil =>
      hq (String.toList_eq_nil_iff.mp hnil)
    have habsolute : (q.push part).isAbsolute = q.isAbsolute := by
      rw [push_of_ne_empty hq hpart, isAbsolute, isAbsolute, String.toList_append, hcs]
      rfl
    rw [join, join, habsolute]
    split
    · rfl
    · -- whatever is in front, the path ends as `q` does
      have hlast : ∀ lead : String, (lead ++ q.text).toList.getLast? = q.text.toList.getLast? := by
        intro lead
        rw [String.toList_append, List.getLast?_append, hcs, List.getLast?_cons]
        rfl
      have hjoined : ∀ lead : String, (⟨lead ++ (q.push part).text⟩ : Path) =
          (⟨lead ++ q.text⟩ : Path).push part := by
        intro lead
        have hne : lead ++ q.text ≠ "" := by simp [hq]
        rw [push_of_ne_empty hne hpart, push_of_ne_empty hq hpart, hlast, String.append_assoc]
      split
      · exact hjoined p.text
      · exact hjoined (p.text ++ "/")

theorem join_foldl_push {names : List String} (hnames : ∀ name ∈ names, IsFileName name)
    (p q : Path) : p.join (names.foldl push q) = names.foldl push (p.join q) := by
  induction names generalizing q with
  | nil => rfl
  | cons name rest ih =>
      rw [List.forall_mem_cons] at hnames
      rw [List.foldl_cons, ih hnames.2, join_push hnames.1, List.foldl_cons]

/-- File names, at least one, lead below a path to where they lead from it. -/
theorem join_foldl_push_empty {names : List String} {part : String}
    (hnames : ∀ name ∈ names, IsFileName name) (hpart : IsFileName part) (p : Path) :
    p.join ((names.foldl push empty).push part) = (names.foldl push p).push part := by
  have hfirst : ∀ {name}, IsFileName name → (p.join empty).push name = p.push name :=
    fun hname => by rw [← join_push hname, empty_push, push]
  rw [join_push hpart, join_foldl_push hnames]
  cases names with
  | nil => exact hfirst hpart
  | cons name rest => rw [List.foldl_cons, hfirst (hnames name List.mem_cons_self), List.foldl_cons]

@[simp] theorem components_empty : (⟨""⟩ : Path).components = [] := rfl

/-- A file name behind a path is one more component. -/
theorem components_push {part : String} (hpart : IsFileName part) (p : Path) :
    (p.push part).components = p.components ++ [.name part] := by
  rw [push, components_join, components_fileName hpart, not_isAbsolute_fileName hpart]
  by_cases hp : p.text = ""
  · obtain ⟨text⟩ := p
    obtain rfl : text = "" := hp
    simp
  · simp [hp]

/-- File names behind a path are as many more components. -/
theorem components_foldl_push {names : List String} (hnames : ∀ name ∈ names, IsFileName name)
    (p : Path) : (names.foldl push p).components = p.components ++ names.map .name := by
  induction names generalizing p with
  | nil => simp
  | cons name rest ih =>
      rw [List.forall_mem_cons] at hnames
      simp [ih hnames.2, components_push hnames.1]

theorem root_notMem_ofPieces (first : Bool) (ps : List (List Char)) :
    .root ∉ ofPieces first ps := by
  induction ps generalizing first with
  | nil => simp [ofPieces]
  | cons piece rest ih =>
      rw [ofPieces, List.mem_append, not_or]
      refine ⟨?_, ih false⟩
      unfold componentOf?
      split
      · simp
      · cases first <;> simp
      · simp
      · simp

/-- A path is absolute when its first component is the root. -/
theorem isAbsolute_iff (p : Path) : p.isAbsolute = true ↔ p.components.head? = some .root := by
  rw [components_eq]
  cases p.isAbsolute with
  | true => simp
  | false =>
      have hroot := root_notMem_ofPieces true (pieces (· == '/') p.text.toList)
      simpa using fun h => hroot (List.mem_of_head? h)

/-- Below another path too, one component more is one component more. -/
theorem components_join_concat {q dir : Path} {part : String}
    (hq : q.components = dir.components ++ [.name part]) (p : Path) :
    (p.join q).components = (p.join dir).components ++ [.name part] := by
  have habsolute : q.isAbsolute = dir.isAbsolute := by
    rw [Bool.eq_iff_iff, isAbsolute_iff, isAbsolute_iff, hq]
    cases dir.components <;> simp
  rw [components_join, components_join, habsolute, hq]
  split
  · rfl
  · simp

theorem fileName?_push {part : String} (hpart : IsFileName part) (p : Path) :
    (p.push part).fileName? = some part := by
  rw [fileName?, components_push hpart, List.getLast?_concat]

end Path

/-- Items that each bring a companion are distinct with these when the items are, and none is the
companion of another. -/
theorem nodup_with_companions_iff {α : Type} {companion : α → α}
    (hinjective : Function.Injective companion) {items : List α} :
    (items.flatMap fun a => [a, companion a]).Nodup ↔
      items.Nodup ∧ ∀ a ∈ items, ∀ b ∈ items, b ≠ companion a := by
  have hperm : (items ++ items.map companion).Perm (items.flatMap fun a => [a, companion a]) := by
    have hmoved := List.map_append_flatMap_perm items id fun a => [companion a]
    rwa [List.map_id, ← List.map_eq_flatMap] at hmoved
  rw [← hperm.nodup_iff, List.nodup_append', List.nodup_map_iff hinjective]
  constructor
  · rintro ⟨hitems, -, hdisjoint⟩
    exact ⟨hitems, fun a ha b hb heq => hdisjoint hb (heq ▸ List.mem_map_of_mem ha)⟩
  · rintro ⟨hitems, hapart⟩
    refine ⟨hitems, hitems, fun b hb hcompanion => ?_⟩
    obtain ⟨a, ha, heq⟩ := List.mem_map.mp hcompanion
    exact hapart a ha b hb heq.symm

end ServiceGen

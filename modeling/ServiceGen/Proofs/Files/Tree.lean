import Mathlib.Data.List.Induction
import ServiceGen.Files.Workspace
import ServiceGen.Proofs.Fallible
import ServiceGen.Proofs.Files.Path

/-!
What a path leads to, and what becomes of that when directories are made and files written.  Places
only come to exist: what a path leads to in a tree, it leads to in all that the tree grows into.
-/

namespace ServiceGen

open Text

namespace FileTree

section Putting

theorem putEntry_putEntry (place : List String) (e e' : Entry)
    (entries : List (List String × Entry)) :
    put.putEntry place e' (put.putEntry place e entries) = put.putEntry place e' entries := by
  induction entries with
  | nil => simp [put.putEntry]
  | cons entry rest ih =>
      by_cases hp : entry.1 = place
      · simp [put.putEntry, hp]
      · simp [put.putEntry, hp, ih]

theorem putEntry_comm {place other : List String} (hne : place ≠ other) (e e' : Entry)
    {entries : List (List String × Entry)} (hplace : (entries.lookup place).isSome) :
    put.putEntry other e' (put.putEntry place e entries) =
      put.putEntry place e (put.putEntry other e' entries) := by
  induction entries with
  | nil => cases hplace
  | cons entry rest ih =>
      obtain ⟨p, old⟩ := entry
      by_cases hp : p = place
      · subst hp
        simp [put.putEntry, hne]
      · have hb : (place == p) = false := beq_eq_false_iff_ne.mpr (Ne.symm hp)
        rw [List.lookup_cons, hb] at hplace
        by_cases ho : p = other
        · subst ho
          simp [put.putEntry, hp]
        · simp [put.putEntry, hp, ho, ih hplace]

theorem putEntry_of_lookup_eq_none {place : List String} (e : Entry)
    {entries : List (List String × Entry)} (h : entries.lookup place = none) :
    put.putEntry place e entries = entries ++ [(place, e)] := by
  induction entries with
  | nil => rfl
  | cons entry rest ih =>
      obtain ⟨p, old⟩ := entry
      rw [List.lookup_cons] at h
      by_cases hp : p = place
      · subst hp
        simp at h
      · have hne : (place == p) = false := beq_eq_false_iff_ne.mpr (Ne.symm hp)
        rw [hne] at h
        simp [put.putEntry, hp, ih h]

variable {t : FileTree} {place other : List String} {e e' : Entry}

theorem lookup_eq_get? (t : FileTree) (hplace : place ≠ []) :
    t.entries.lookup place = t.get? place := by
  simp [get?, hplace]

theorem put_put (t : FileTree) (place : List String) (e e' : Entry) :
    (t.put place e).put place e' = t.put place e' :=
  congrArg FileTree.mk (putEntry_putEntry place e e' t.entries)

theorem put_comm (hne : place ≠ other) (hplace : place ≠ []) (h : (t.get? place).isSome) :
    (t.put place e).put other e' = (t.put other e').put place e := by
  rw [← lookup_eq_get? t hplace] at h
  exact congrArg FileTree.mk (putEntry_comm hne e e' h)

theorem get?_put_self (t : FileTree) (hplace : place ≠ []) (e : Entry) :
    (t.put place e).get? place = some e := by
  rw [get?_put t place place e hplace, if_pos rfl]

theorem get?_put_of_ne (t : FileTree) (hplace : place ≠ []) (e : Entry) (hne : other ≠ place) :
    (t.put place e).get? other = t.get? other := by
  rw [get?_put t place other e hplace, if_neg hne]

end Putting

/-- All places of the first tree are in the second one, directories as directories. -/
def Extends (t t' : FileTree) : Prop :=
  ∀ place e, t.get? place = some e →
    ∃ e', t'.get? place = some e' ∧ (e' = .directory ↔ e = .directory)

namespace Extends

variable {t t' t'' : FileTree} {place : List String}

theorem refl (t : FileTree) : t.Extends t :=
  fun _ e h => ⟨e, h, Iff.rfl⟩

theorem trans (h : t.Extends t') (h' : t'.Extends t'') : t.Extends t'' := by
  intro place e hplace
  obtain ⟨e', he', hkind⟩ := h place e hplace
  obtain ⟨e'', he'', hkind'⟩ := h' place e' he'
  exact ⟨e'', he'', hkind'.trans hkind⟩

theorem directory (h : t.Extends t') (hplace : t.get? place = some .directory) :
    t'.get? place = some .directory := by
  obtain ⟨e', he', hkind⟩ := h place .directory hplace
  rw [he', hkind.mpr rfl]

theorem file (h : t.Extends t') {content : Content} (hplace : t.get? place = some (.file content)) :
    ∃ other, t'.get? place = some (.file other) := by
  obtain ⟨e', he', hkind⟩ := h place _ hplace
  cases e' with
  | directory => cases hkind.mp rfl
  | file other => exact ⟨other, he'⟩

theorem isSome (h : t.Extends t') (hplace : (t.get? place).isSome) : (t'.get? place).isSome := by
  obtain ⟨e, he⟩ := Option.isSome_iff_exists.mp hplace
  obtain ⟨e', he', -⟩ := h place e he
  simp [he']

/-- Something new may be put anywhere, and a file where a file is. -/
theorem put {e : Entry} (hplace : place ≠ [])
    (hold : ∀ old, t.get? place = some old → (e = .directory ↔ old = .directory)) :
    t.Extends (t.put place e) := by
  intro other old hother
  by_cases heq : other = place
  · subst heq
    exact ⟨e, get?_put_self t hplace e, hold old hother⟩
  · exact ⟨old, (get?_put_of_ne t hplace e heq).trans hother, Iff.rfl⟩

end Extends

section Walking

variable {t t' : FileTree} {place q : List String} {part : String}

/-- The place that some parts lead to from the root. -/
def walk (t : FileTree) (parts : List String) : Except FileError (List String) :=
  parts.foldlM t.step []

theorem walk_append (t : FileTree) (ps qs : List String) :
    t.walk (ps ++ qs) = t.walk ps >>= fun place => qs.foldlM t.step place := by
  rw [walk, List.foldlM_append]
  rfl

theorem walk_concat (t : FileTree) (ps : List String) (part : String) :
    t.walk (ps ++ [part]) = t.walk ps >>= fun place => t.step place part := by
  rw [walk_append]
  refine congrArg _ (funext fun place => ?_)
  rw [List.foldlM_cons]
  exact bind_pure _

theorem resolve_eq_ok {p : Path} :
    t.resolve p = .ok q ↔ checkPath p = .ok () ∧ t.walk (parts p) = .ok q := by
  rw [resolve, Fallible.bind_eq_ok_iff]
  constructor
  · rintro ⟨⟨⟩, hcheck, hwalk⟩
    exact ⟨hcheck, hwalk⟩
  · rintro ⟨hcheck, hwalk⟩
    exact ⟨(), hcheck, hwalk⟩

/-- The part names an entry of a directory. -/
def IsName (part : String) : Prop :=
  part ≠ "" ∧ part ≠ "." ∧ part ≠ ".."

/-- One step stays, goes up, or goes down to an entry. -/
theorem step_eq_ok (h : t.step place part = .ok q) :
    t.get? place = some .directory ∧
      ((¬ IsName part ∧ (q = place ∨ q = place.dropLast)) ∨
        (IsName part ∧ q = place ++ [part] ∧ (t.get? (place ++ [part])).isSome)) := by
  unfold step at h
  split at h
  · cases h
  · cases h
  · rename_i hdirectory
    refine ⟨hdirectory, ?_⟩
    by_cases hstay : (part.isEmpty || part == ".") = true
    · rw [if_pos hstay] at h
      cases h
      simp only [Bool.or_eq_true, String.isEmpty_iff, beq_iff_eq] at hstay
      exact .inl ⟨fun hname => hstay.elim hname.1 hname.2.1, .inl rfl⟩
    · rw [if_neg hstay] at h
      by_cases hup : (part == "..") = true
      · rw [if_pos hup] at h
        cases h
        exact .inl ⟨fun hname => hname.2.2 (by simpa using hup), .inr rfl⟩
      · rw [if_neg hup] at h
        have hname : IsName part := by
          simpa [IsName, not_or, and_assoc] using And.intro hstay hup
        split at h
        · cases h
        · split at h
          · cases h
            exact .inr ⟨hname, rfl, ‹_›⟩
          · cases h

theorem step_of_isName (hplace : t.get? place = some .directory) (hname : IsName part) :
    t.step place part =
      if maxNameLength < part.utf8ByteSize then .error .nameTooLong
      else if (t.get? (place ++ [part])).isSome then .ok (place ++ [part])
      else .error .notFound := by
  obtain ⟨hempty, hdot, hdots⟩ := hname
  simp [step, hplace, hempty, hdot, hdots]

theorem step_empty (hplace : t.get? place = some .directory) : t.step place "" = .ok place := by
  simp [step, hplace]

theorem step_empty_bind (t : FileTree) (place : List String) (part : String) :
    (t.step place "" >>= fun q => t.step q part) = t.step place part := by
  cases hplace : t.get? place with
  | none => simp [step, hplace, bind, Except.bind]
  | some e =>
      cases e with
      | directory =>
          rw [step_empty hplace]
          rfl
      | file content => simp [step, hplace, bind, Except.bind]

/-- The place is there, and all above it are directories. -/
structure Stands (t : FileTree) (place : List String) : Prop where
  isSome : (t.get? place).isSome
  above : ∀ above below, place = above ++ below → below ≠ [] → t.get? above = some .directory

theorem stands_root (t : FileTree) : t.Stands [] where
  isSome := rfl
  above := by
    intro above below heq hbelow
    exact absurd (List.append_eq_nil_iff.mp heq.symm).2 hbelow

theorem Stands.step (hstands : t.Stands place) (h : t.step place part = .ok q) : t.Stands q := by
  obtain ⟨hdirectory, ⟨-, rfl | rfl⟩ | ⟨-, rfl, hsome⟩⟩ := step_eq_ok h
  · exact hstands
  · rcases List.eq_nil_or_concat' place with rfl | ⟨init, last, rfl⟩
    · exact hstands
    · rw [List.dropLast_concat]
      refine ⟨?_, fun above below heq hbelow => hstands.above above (below ++ [last]) ?_ (by simp)⟩
      · rw [hstands.above init [last] rfl (by simp)]
        rfl
      · rw [heq, List.append_assoc]
  · refine ⟨hsome, fun above below heq hbelow => ?_⟩
    rcases List.eq_nil_or_concat' below with rfl | ⟨init, last, rfl⟩
    · exact absurd rfl hbelow
    · rw [← List.append_assoc] at heq
      obtain ⟨rfl, -⟩ := List.append_inj' heq rfl
      rcases List.eq_nil_or_concat' init with rfl | ⟨init, last, rfl⟩
      · rw [List.append_nil] at hdirectory
        exact hdirectory
      · exact hstands.above above _ rfl (by simp)

theorem stands_of_walk {ps : List String} (h : t.walk ps = .ok q) : t.Stands q := by
  induction ps using List.reverseRecOn generalizing q with
  | nil =>
      cases h
      exact stands_root t
  | append_singleton ps part ih =>
      rw [walk_concat, Fallible.bind_eq_ok_iff] at h
      obtain ⟨place, hplace, hstep⟩ := h
      exact (ih hplace).step hstep

theorem Extends.step (h : t.Extends t') (hstep : t.step place part = .ok q) :
    t'.step place part = .ok q := by
  obtain ⟨hdirectory, hq⟩ := step_eq_ok hstep
  have hdirectory' := h.directory hdirectory
  rcases hq with ⟨hname, -⟩ | ⟨hname, rfl, hsome⟩
  · simp only [IsName, not_and_or, not_not] at hname
    rcases hname with rfl | rfl | rfl <;> simpa [FileTree.step, hdirectory, hdirectory'] using hstep
  · rw [step_of_isName hdirectory hname] at hstep
    rw [step_of_isName hdirectory' hname, if_pos (h.isSome hsome)]
    rwa [if_pos hsome] at hstep

theorem Extends.walk (h : t.Extends t') {ps : List String} (hwalk : t.walk ps = .ok q) :
    t'.walk ps = .ok q := by
  induction ps using List.reverseRecOn generalizing q with
  | nil => exact hwalk
  | append_singleton ps part ih =>
      rw [walk_concat, Fallible.bind_eq_ok_iff] at hwalk
      obtain ⟨place, hplace, hstep⟩ := hwalk
      rw [walk_concat, Fallible.bind_eq_ok_iff]
      exact ⟨place, ih hplace, h.step hstep⟩

theorem Extends.resolve (h : t.Extends t') {p : Path} (hresolve : t.resolve p = .ok q) :
    t'.resolve p = .ok q := by
  rw [resolve_eq_ok] at hresolve ⊢
  exact ⟨hresolve.1, h.walk hresolve.2⟩

end Walking

section Parts

variable {t : FileTree} {p : Path} {q : List String}

theorem parts_eq (p : Path) : parts p = (pieces (· == '/') p.text.toList).map String.ofList := rfl

theorem parts_ne_nil (p : Path) : parts p ≠ [] := by
  simp [parts_eq, pieces_ne_nil]

/-- Without slashes a text is a part. -/
theorem parts_single {part : String} (hpart : '/' ∉ part.toList) : parts ⟨part⟩ = [part] := by
  have hnot : ∀ c ∈ part.toList, (c == '/') = false := fun c hc =>
    beq_eq_false_iff_ne.mpr fun heq => hpart (heq ▸ hc)
  simp [parts_eq, pieces_of_forall hnot]

theorem parts_slash (cs ds : List Char) :
    parts ⟨.ofList (cs ++ '/' :: ds)⟩ = parts ⟨.ofList cs⟩ ++ parts ⟨.ofList ds⟩ := by
  simp [parts_eq, pieces_append_cons]

/-- A text that begins no new path stands behind the parts of the path before it, of which the
last may have been empty. -/
theorem parts_push (p : Path) {text : String} (htext : (⟨text⟩ : Path).isAbsolute = false) :
    ∃ before, parts (p.push text) = before ++ parts ⟨text⟩ ∧
      (parts p = before ∨ parts p = before ++ [""]) := by
  by_cases hempty : p.text = ""
  · refine ⟨[], ?_, .inr ?_⟩
    · rw [Path.push, Path.join, hempty, String.empty_append]
      simp
    · simp [parts_eq, hempty, pieces]
  · obtain ⟨cs, hjoin, hcs⟩ := Path.exists_join_text hempty htext
    refine ⟨parts ⟨.ofList cs⟩, ?_, ?_⟩
    · rw [Path.push, parts_eq, hjoin, pieces_append_cons (by simp), List.map_append]
      simp [parts_eq]
    · rcases hcs with hcs | hcs
      · exact .inl (by simp [parts_eq, hcs])
      · refine .inr ?_
        rw [parts_eq, hcs, pieces_append_cons (by simp), List.map_append]
        simp [parts_eq, pieces]

/-- A file name behind a path leads one step further. -/
theorem walk_push (t : FileTree) (p : Path) {part : String} (hpart : Path.IsFileName part) :
    t.walk (parts (p.push part)) = t.walk (parts p) >>= fun place => t.step place part := by
  obtain ⟨before, hpush, hp⟩ := parts_push p (Path.not_isAbsolute_fileName hpart)
  rw [hpush, parts_single hpart.1, walk_concat]
  rcases hp with hp | hp
  · rw [hp]
  · rw [hp, walk_concat, bind_assoc]
    exact congrArg _ (funext fun place => (step_empty_bind t place part).symm)

/-- The parts of a path are those that lead to the last one, the last one, and empty ones. -/
theorem exists_parts_eq (p : Path) :
    ∃ n, parts p = (splitLast p).1 ++ (splitLast p).2 :: List.replicate n "" := by
  have hempty : ∀ part ∈ (parts p).reverse.takeWhile String.isEmpty, part = "" := fun part hpart =>
    String.isEmpty_iff.mp (List.all_eq_true.mp List.all_takeWhile part hpart)
  have hsplit := (parts p).reverse.takeWhile_append_dropWhile (p := String.isEmpty)
  rw [List.eq_replicate_of_mem hempty] at hsplit
  generalize ((parts p).reverse.takeWhile String.isEmpty).length = n at hsplit
  rw [splitLast]
  cases hdrop : (parts p).reverse.dropWhile String.isEmpty with
  | nil =>
      have hparts : parts p = List.replicate n "" := by
        rw [← List.reverse_reverse (parts p), ← hsplit, hdrop]
        simp
      cases n with
      | zero => exact absurd hparts (parts_ne_nil p)
      | succ n => exact ⟨n, hparts⟩
  | cons last before =>
      refine ⟨n, ?_⟩
      rw [← List.reverse_reverse (parts p), ← hsplit, hdrop]
      simp

theorem pieces_getLast?_nil {cut : Char → Bool} {cs : List Char}
    (h : (pieces cut cs).getLast? = some []) : cs = [] ∨ ∃ c, cs.getLast? = some c ∧ cut c := by
  induction cs with
  | nil => exact .inl rfl
  | cons c cs ih =>
      refine .inr ?_
      cases hc : cut c with
      | true =>
          have hrest : (pieces cut cs).getLast? = some [] := by
            rw [pieces, if_pos hc, List.getLast?_cons] at h
            cases hpieces : (pieces cut cs).getLast? with
            | none =>
                obtain ⟨piece, hpiece⟩ := List.exists_mem_of_ne_nil _ (pieces_ne_nil cut cs)
                rw [List.getLast?_eq_none_iff.mp hpieces] at hpiece
                cases hpiece
            | some last => simpa [hpieces] using h
          rcases ih hrest with rfl | ⟨d, hd, hcut⟩
          · exact ⟨c, rfl, hc⟩
          · exact ⟨d, by simp [List.getLast?_cons, hd], hcut⟩
      | false =>
          obtain ⟨piece, rest, hcs, hccs⟩ := pieces_cons_of_not_cut hc cs
          have hrest : rest.getLast? = some [] := by
            rw [hccs, List.getLast?_cons] at h
            cases hlast : rest.getLast? <;> simp_all
          rcases ih (by rw [hcs, List.getLast?_cons, hrest]; rfl) with rfl | ⟨d, hd, hcut⟩
          · simp only [pieces, List.cons.injEq] at hcs
            simp [← hcs.2] at hrest
          · exact ⟨d, by simp [List.getLast?_cons, hd], hcut⟩

end Parts

end FileTree

end ServiceGen

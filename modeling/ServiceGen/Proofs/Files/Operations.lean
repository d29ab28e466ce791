import ServiceGen.Proofs.Files.Changes

/-!
What the operations on a tree do when they are not refused: making directories only adds some, and a
path that was written leads to the file.  On a tree that has grown they find everything there.
-/

namespace ServiceGen

namespace FileTree

open Text

variable {t t' : FileTree} {p : Path} {place q : List String}

section LastPart

/-- The walk along a path, divided at its last part that is not empty. -/
theorem walk_parts (t : FileTree) (p : Path) :
    ∃ n, t.walk (parts p) = (t.walk (splitLast p).1 >>= fun place =>
        t.step place (splitLast p).2 >>= fun q => (List.replicate n "").foldlM t.step q) ∧
      (n = 0 ∨ p.text = "" ∨ p.text.toList.getLast? = some '/') := by
  obtain ⟨n, hn⟩ := exists_parts_eq p
  refine ⟨n, ?_, ?_⟩
  · rw [hn, walk_append]
    exact congrArg _ (funext fun place => List.foldlM_cons)
  · cases n with
    | zero => exact .inl rfl
    | succ n =>
        refine .inr ?_
        have hlast : (pieces (· == '/') p.text.toList).getLast? = some [] := by
          have hparts : (parts p).getLast? = some "" := by
            rw [hn, List.replicate_succ', ← List.cons_append, ← List.append_assoc]
            exact List.getLast?_concat
          rw [parts_eq, List.getLast?_map, Option.map_eq_some_iff] at hparts
          obtain ⟨piece, hpiece, hempty⟩ := hparts
          rwa [String.ofList_eq_empty_iff.mp hempty] at hpiece
        rcases pieces_getLast?_nil hlast with hnil | ⟨c, hc, hcut⟩
        · exact .inl (String.toList_eq_nil_iff.mp hnil)
        · exact .inr (by rwa [← beq_iff_eq.mp hcut])

theorem checkPath_eq_ok : checkPath p = .ok () ↔
    p.hasNul = false ∧ p.text ≠ "" ∧ p.text.utf8ByteSize ≤ maxPathLength := by
  unfold checkPath
  by_cases hnul : p.hasNul = true
  · simp [hnul]
  · by_cases hempty : p.text = ""
    · simp [hnul, hempty]
    · by_cases hlength : maxPathLength < p.text.utf8ByteSize
      · simp [hnul, hempty, hlength]
      · simp [hnul, hempty, Nat.not_lt.mp hlength, hlength]

theorem foldlM_replicate (hplace : t.get? place = some .directory) (n : Nat) :
    (List.replicate n "").foldlM t.step place = .ok place := by
  induction n with
  | zero => rfl
  | succ n ih =>
      rw [List.replicate_succ, List.foldlM_cons, step_empty hplace]
      exact ih

theorem eq_of_foldlM_replicate {n : Nat}
    (h : (List.replicate n "").foldlM t.step place = .ok q) : q = place := by
  cases n with
  | zero => exact (Except.ok.inj h).symm
  | succ n =>
      have hdirectory : t.get? place = some .directory := by
        rw [List.replicate_succ, List.foldlM_cons, Fallible.bind_eq_ok_iff] at h
        obtain ⟨next, hnext, -⟩ := h
        exact (step_eq_ok hnext).1
      rw [foldlM_replicate hdirectory] at h
      exact (Except.ok.inj h).symm

/-- A path leads to where its last part leads. -/
theorem step_of_resolve (h : t.resolve p = .ok q) :
    checkPath p = .ok () ∧ ∃ place, t.walk (splitLast p).1 = .ok place ∧
      t.step place (splitLast p).2 = .ok q := by
  obtain ⟨hcheck, hwalk⟩ := resolve_eq_ok.mp h
  obtain ⟨n, hn, -⟩ := walk_parts t p
  rw [hn, Fallible.bind_eq_ok_iff] at hwalk
  obtain ⟨place, hplace, hwalk⟩ := hwalk
  obtain ⟨next, hnext, hwalk⟩ := Fallible.bind_eq_ok_iff.mp hwalk
  obtain rfl := eq_of_foldlM_replicate hwalk
  exact ⟨hcheck, place, hplace, hnext⟩

theorem resolve_of_step (hcheck : checkPath p = .ok ())
    (hbefore : t.walk (splitLast p).1 = .ok place) (hlast : t.step place (splitLast p).2 = .ok q)
    (hend : t.get? q = some .directory ∨ p.text.toList.getLast? ≠ some '/') :
    t.resolve p = .ok q := by
  refine resolve_eq_ok.mpr ⟨hcheck, ?_⟩
  obtain ⟨n, hn, htrailing⟩ := walk_parts t p
  rw [hn, Fallible.bind_eq_ok_iff]
  refine ⟨place, hbefore, Fallible.bind_eq_ok_iff.mpr ⟨q, hlast, ?_⟩⟩
  rcases hend with hdirectory | hslash
  · exact foldlM_replicate hdirectory n
  · rcases htrailing with rfl | hempty | hslash'
    · rfl
    · exact absurd hempty (checkPath_eq_ok.mp hcheck).2.1
    · exact absurd hslash' hslash

/-- A path with a slash at its end leads to a directory. -/
theorem directory_of_slash (h : t.resolve p = .ok q) (hslash : p.text.toList.getLast? = some '/') :
    t.get? q = some .directory := by
  obtain ⟨cs, hcs⟩ := List.getLast?_eq_some_iff.mp hslash
  have hp : p = ⟨.ofList (cs ++ '/' :: [])⟩ := by
    rw [← hcs, String.ofList_toList]
  have hwalk := (resolve_eq_ok.mp h).2
  have hempty : parts ⟨String.ofList []⟩ = [""] := rfl
  rw [hp, parts_slash, hempty, walk_concat, Fallible.bind_eq_ok_iff] at hwalk
  obtain ⟨place, -, hstep⟩ := hwalk
  have hdirectory := (step_eq_ok hstep).1
  rw [step_empty hdirectory] at hstep
  rwa [← Except.ok.inj hstep]

theorem step_of_not_isName {part : String} (hplace : t.get? place = some .directory)
    (hname : ¬ IsName part) : ∃ q, t.step place part = .ok q := by
  simp only [IsName, not_and_or, not_not] at hname
  rcases hname with rfl | rfl | rfl <;> simp [step, hplace]

/-- Where nothing is found, a name is missing in a directory; once something is put there, it is
found. -/
theorem step_eq_notFound (hplace : t.Stands place) {part : String}
    (h : t.step place part = .error .notFound) :
    t.get? (place ++ [part]) = none ∧
      ∀ e, (t.put (place ++ [part]) e).step place part = .ok (place ++ [part]) := by
  have hdirectory : t.get? place = some .directory := by
    unfold step at h
    split at h
    · rename_i habsent
      have hsome := hplace.isSome
      rw [habsent] at hsome
      cases hsome
    · cases h
    · assumption
  have hname : IsName part := by
    by_contra hname
    obtain ⟨q, hq⟩ := step_of_not_isName hdirectory hname
    rw [hq] at h
    cases h
  rw [step_of_isName hdirectory hname] at h
  split at h
  · cases h
  · rename_i hlength
    split at h
    · cases h
    · rename_i hsome
      refine ⟨Option.not_isSome_iff_eq_none.mp hsome, fun e => ?_⟩
      have hne : place ++ [part] ≠ [] := by simp
      have hkept : (t.put (place ++ [part]) e).get? place = some .directory := by
        rw [get?_put_of_ne t hne e (by simp), hdirectory]
      rw [step_of_isName hkept hname, if_neg hlength, get?_put_self t hne]
      rfl

end LastPart

section Directories

/-- What is at the end of a path. -/
theorem at?_eq_some {e : Entry} :
    t.at? p = some e ↔ ∃ q, t.resolve p = .ok q ∧ t.get? q = some e := by
  unfold at?
  cases t.resolve p <;> simp

theorem isDirectory_iff :
    t.isDirectory p = true ↔ ∃ q, t.resolve p = .ok q ∧ t.get? q = some .directory := by
  rw [isDirectory, beq_iff_eq, at?_eq_some]

theorem exists?_iff : t.exists? p = true ↔ ∃ q, t.resolve p = .ok q := by
  rw [exists?, Option.isSome_iff_exists]
  constructor
  · rintro ⟨e, he⟩
    obtain ⟨q, hq, -⟩ := at?_eq_some.mp he
    exact ⟨q, hq⟩
  · rintro ⟨q, hq⟩
    obtain ⟨e, he⟩ := Option.isSome_iff_exists.mp (stands_of_walk (resolve_eq_ok.mp hq).2).isSome
    exact ⟨e, at?_eq_some.mpr ⟨q, hq, he⟩⟩

theorem Extends.isDirectory (h : t.Extends t') (hp : t.isDirectory p = true) :
    t'.isDirectory p = true := by
  obtain ⟨q, hq, hdirectory⟩ := isDirectory_iff.mp hp
  exact isDirectory_iff.mpr ⟨q, h.resolve hq, h.directory hdirectory⟩

theorem Extends.exists? (h : t.Extends t') (hp : t.exists? p = true) : t'.exists? p = true := by
  obtain ⟨q, hq⟩ := exists?_iff.mp hp
  exact exists?_iff.mpr ⟨q, h.resolve hq⟩

theorem makeDirectory_eq_ok (h : t.makeDirectory p = .ok t') :
    t.Changes [] [] t' ∧ t'.isDirectory p = true := by
  rw [makeDirectory, Fallible.bind_eq_ok_iff] at h
  obtain ⟨⟨⟩, hcheck, h⟩ := h
  obtain ⟨place, hplace, h⟩ := Fallible.bind_eq_ok_iff.mp h
  split at h
  · cases h
  · rename_i hstep
    obtain ⟨habsent, hfound⟩ := step_eq_notFound (stands_of_walk hplace) hstep
    obtain rfl := Except.ok.inj h
    have hput := get?_put_self t (ne_nil_of_absent habsent) .directory
    refine ⟨.directory .refl habsent, isDirectory_iff.mpr ⟨_, ?_, hput⟩⟩
    exact resolve_of_step hcheck ((extends_put_absent habsent _).walk hplace) (hfound _)
      (.inl hput)
  · cases h

theorem ensureDirectory_eq_ok (h : t.ensureDirectory p = .ok t') :
    t.Changes [] [] t' ∧ t'.isDirectory p = true := by
  unfold ensureDirectory at h
  split at h
  · rename_i hmade
    obtain rfl := Except.ok.inj h
    exact makeDirectory_eq_ok hmade
  · split at h
    · obtain rfl := Except.ok.inj h
      exact ⟨.refl, ‹_›⟩
    · cases h

theorem ensureDirectory_of_isDirectory (h : t.isDirectory p = true) :
    t.ensureDirectory p = .ok t := by
  obtain ⟨q, hq, -⟩ := isDirectory_iff.mp h
  obtain ⟨hcheck, place, hplace, hstep⟩ := step_of_resolve hq
  have hmade : t.makeDirectory p = .error .alreadyExists := by
    rw [walk] at hplace
    simp only [makeDirectory, hcheck, hplace, hstep, bind, Except.bind]
    rfl
  simp only [ensureDirectory, hmade, h, if_true]

theorem ensureDirectories_eq_ok {depth : Nat} (h : t.ensureDirectories p depth = .ok t') :
    t.Changes [] [] t' ∧ (p.text ≠ "" → t'.isDirectory p = true) := by
  induction depth generalizing p t t' with
  | zero => cases h
  | succ depth ih =>
      rw [ensureDirectories] at h
      split at h
      · obtain rfl := Except.ok.inj h
        exact ⟨.refl, fun hne => absurd (String.isEmpty_iff.mp ‹_›) hne⟩
      · split at h
        · obtain ⟨around, haround, h⟩ := Fallible.bind_eq_ok_iff.mp h
          obtain ⟨hchanges, hdirectory⟩ := ensureDirectory_eq_ok h
          exact ⟨(ih haround).1.trans hchanges, fun _ => hdirectory⟩
        · obtain ⟨hchanges, hdirectory⟩ := ensureDirectory_eq_ok h
          exact ⟨hchanges, fun _ => hdirectory⟩

theorem ensureDirectories_of_isDirectory (h : p.text ≠ "" → t.isDirectory p = true)
    (depth : Nat) : t.ensureDirectories p (depth + 1) = .ok t := by
  rw [ensureDirectories]
  split
  · rfl
  · rename_i hne
    rw [ensureDirectory_of_isDirectory (h fun hempty => hne (String.isEmpty_iff.mpr hempty))]

end Directories

/-- A path that is continued by a file name leads to a directory, unless it is empty. -/
theorem isDirectory_of_push {part : String} (hpart : Path.IsFileName part)
    (h : t.resolve (p.push part) = .ok q) (hne : p.text ≠ "") : t.isDirectory p = true := by
  obtain ⟨hcheck, hwalk⟩ := resolve_eq_ok.mp h
  rw [walk_push t p hpart, Fallible.bind_eq_ok_iff] at hwalk
  obtain ⟨place, hplace, hstep⟩ := hwalk
  refine isDirectory_iff.mpr ⟨place, resolve_eq_ok.mpr ⟨?_, hplace⟩, (step_eq_ok hstep).1⟩
  obtain ⟨rest, hrest⟩ := Path.exists_push_text hpart p
  obtain ⟨hnul, -, hlength⟩ := checkPath_eq_ok.mp hcheck
  rw [Path.hasNul, hrest] at hnul
  rw [hrest, String.utf8ByteSize_append] at hlength
  refine checkPath_eq_ok.mpr ⟨?_, hne, by omega⟩
  simp only [String.toList_append, List.contains_eq_mem, List.mem_append, decide_eq_false_iff_not,
    not_or] at hnul
  simpa [Path.hasNul] using hnul.1

section Writing

variable {content : Content}

/-- A file is written where nothing was or where the path has led to a file. -/
theorem write_eq_ok (h : t.write p content = .ok t') :
    ∃ q, t' = t.put q (.file content) ∧ t'.resolve p = .ok q ∧
      (t.get? q = none ∨ t.resolve p = .ok q ∧ ∃ old, t.get? q = some (.file old)) := by
  rw [write, Fallible.bind_eq_ok_iff] at h
  obtain ⟨⟨⟩, hcheck, h⟩ := h
  obtain ⟨place, hplace, h⟩ := Fallible.bind_eq_ok_iff.mp h
  split at h
  · rename_i hstep
    obtain ⟨habsent, hfound⟩ := step_eq_notFound (stands_of_walk hplace) hstep
    split at h
    · cases h
    · rename_i hslash
      obtain rfl := Except.ok.inj h
      refine ⟨_, rfl, ?_, .inl habsent⟩
      exact resolve_of_step hcheck ((extends_put_absent habsent _).walk hplace) (hfound _)
        (.inr (by simpa using hslash))
  · cases h
  · rename_i target hstep
    split at h
    · rename_i old hold
      split at h
      · cases h
      · rename_i hslash
        obtain rfl := Except.ok.inj h
        have hresolve : t.resolve p = .ok target :=
          resolve_of_step hcheck hplace hstep (.inr (by simpa using hslash))
        exact ⟨target, rfl, (extends_put_over hold content).resolve hresolve,
          .inr ⟨hresolve, old, hold⟩⟩
    · cases h

theorem write_of_file {old : Content} (hq : t.resolve p = .ok q)
    (hold : t.get? q = some (.file old)) (content : Content) :
    t.write p content = .ok (t.put q (.file content)) := by
  obtain ⟨hcheck, place, hplace, hstep⟩ := step_of_resolve hq
  have hslash : (p.text.toList.getLast? == some '/') = false := by
    rw [beq_eq_false_iff_ne]
    intro hslash
    cases (directory_of_slash hq hslash).symm.trans hold
  rw [walk] at hplace
  simp only [write, hcheck, hplace, hstep, hold, hslash, bind, Except.bind]
  rfl

theorem write_changes (h : t.write p content = .ok t') :
    ∃ q, t.Changes [] [(q, content)] t' ∧ t'.resolve p = .ok q := by
  obtain ⟨q, rfl, hq, habsent | ⟨-, old, hold⟩⟩ := write_eq_ok h
  · exact ⟨q, .write content .refl (ne_nil_of_absent habsent) (by simp [habsent]), hq⟩
  · exact ⟨q, .write content .refl (place_ne_nil_of_file hold) (by simp [hold]), hq⟩

theorem read_eq_ok {text : String} (h : t.read p = .ok text) :
    ∃ q, t.resolve p = .ok q ∧ t.get? q = some (.file (.text text)) := by
  rw [read, Fallible.bind_eq_ok_iff] at h
  obtain ⟨q, hq, h⟩ := h
  split at h
  · rename_i hfile
    obtain rfl := Except.ok.inj h
    exact ⟨q, hq, hfile⟩
  · cases h
  · cases h
  · cases h

theorem read_of_file {text : String} (hq : t.resolve p = .ok q)
    (htext : t.get? q = some (.file (.text text))) : t.read p = .ok text := by
  simp only [read, hq, htext, bind, Except.bind]
  rfl

/-- A file that is written when its path leads nowhere is created. -/
theorem write_creates (hnew : ¬ t.exists? p = true) (h : t.write p content = .ok t') :
    ∃ q, t.Changes [q] [] t' ∧ t'.resolve p = .ok q := by
  obtain ⟨q, rfl, hq, habsent | ⟨hresolve, -⟩⟩ := write_eq_ok h
  · exact ⟨q, .create content .refl habsent, hq⟩
  · exact absurd (exists?_iff.mpr ⟨q, hresolve⟩) hnew

end Writing

section LastName

theorem isName_of_isFileName {part : String} (hpart : Path.IsFileName part) : IsName part :=
  hpart.2

/-- Where file names behind a path lead. -/
theorem place_of_resolve_foldl_push {names : List String}
    (hnames : ∀ name ∈ names, Path.IsFileName name)
    (h : t.resolve (names.foldl Path.push p) = .ok q) :
    ∃ place, t.walk (parts p) = .ok place ∧ q = place ++ names := by
  have hwalk := (resolve_eq_ok.mp h).2
  clear h
  induction names using List.reverseRecOn generalizing q with
  | nil => exact ⟨q, hwalk, (List.append_nil q).symm⟩
  | append_singleton names last ih =>
      rw [List.forall_mem_append] at hnames
      rw [List.foldl_concat, walk_push t _ (hnames.2 last List.mem_cons_self),
        Fallible.bind_eq_ok_iff] at hwalk
      obtain ⟨dir, hdir, hstep⟩ := hwalk
      obtain ⟨place, hplace, rfl⟩ := ih hnames.1 hdir
      obtain ⟨-, ⟨hname, -⟩ | ⟨-, rfl, -⟩⟩ := step_eq_ok hstep
      · exact absurd (isName_of_isFileName (hnames.2 last List.mem_cons_self)) hname
      · exact ⟨place, hplace, List.append_assoc ..⟩

/-- Where a file name behind a path leads. -/
theorem place_of_resolve_push {part : String} (hpart : Path.IsFileName part)
    (h : t.resolve (p.push part) = .ok q) :
    ∃ place, t.walk (parts p) = .ok place ∧ q = place ++ [part] :=
  place_of_resolve_foldl_push (List.forall_mem_singleton.mpr hpart) h

/-- Paths to files of different names lead to different places. -/
theorem resolve_push_ne {part other : String} (hpart : Path.IsFileName part)
    (hother : Path.IsFileName other) (hne : part ≠ other) (h : t.resolve (p.push part) = .ok q)
    (p' : Path) : t.resolve (p'.push other) ≠ .ok q := by
  intro h'
  obtain ⟨place, -, heq⟩ := place_of_resolve_push hpart h
  obtain ⟨place', -, heq'⟩ := place_of_resolve_push hother h'
  exact hne (List.append_singleton_inj.mp (heq.symm.trans heq')).2

/-- A text, divided at its last slash. -/
theorem exists_last_slash (cs : List Char) :
    ∃ tail, '/' ∉ tail ∧ (cs = tail ∨ ∃ before, cs = before ++ '/' :: tail) := by
  induction cs with
  | nil => exact ⟨[], by simp, .inl rfl⟩
  | cons c cs ih =>
      obtain ⟨tail, htail, rfl | ⟨before, rfl⟩⟩ := ih
      · by_cases hc : c = '/'
        · exact ⟨cs, htail, .inr ⟨[], by simp [hc]⟩⟩
        · exact ⟨c :: cs, by simp [htail, Ne.symm hc], .inl rfl⟩
      · exact ⟨tail, htail, .inr ⟨c :: before, rfl⟩⟩

/-- Whatever text stands behind a path, its parts are the last ones. -/
theorem exists_parts_push (p : Path) (text : String) :
    ∃ before, parts (p.push text) = before ++ parts ⟨text⟩ := by
  cases habsolute : (⟨text⟩ : Path).isAbsolute with
  | true => exact ⟨[], by rw [Path.push, Path.join, if_pos habsolute]; rfl⟩
  | false =>
      obtain ⟨before, hparts, -⟩ := parts_push p habsolute
      exact ⟨before, hparts⟩

theorem exists_parts_ending {cs tail : List Char} {ending : String}
    (htail : '/' ∉ (String.ofList tail ++ ending).toList)
    (hcs : cs = tail ∨ ∃ before, cs = before ++ '/' :: tail) :
    ∃ before, parts ⟨.ofList cs ++ ending⟩ = before ++ [.ofList tail ++ ending] := by
  rcases hcs with rfl | ⟨before, rfl⟩
  · exact ⟨[], parts_single htail⟩
  · have htext : String.ofList (before ++ '/' :: tail) ++ ending =
        .ofList (before ++ '/' :: (String.ofList tail ++ ending).toList) := by
      apply String.toList_injective
      simp
    refine ⟨parts ⟨.ofList before⟩, ?_⟩
    rw [htext, parts_slash, String.ofList_toList, parts_single htail]

/-- Whatever text stands behind a path, the place has the name that ends the text. -/
theorem last_of_resolve_push {stem ending : String}
    (hending : ∀ text : String, '/' ∉ text.toList → Path.IsFileName (text ++ ending))
    (h : t.resolve (p.push (stem ++ ending)) = .ok q) :
    ∃ tail : String, q.getLast? = some (tail ++ ending) ∧ (∀ c ∈ tail.toList, c ∈ stem.toList) ∧
      ('/' ∉ stem.toList → tail = stem) := by
  obtain ⟨tail, htail, hstem⟩ := exists_last_slash stem.toList
  have hname := hending (.ofList tail) (by simpa using htail)
  obtain ⟨inner, hinner⟩ := exists_parts_ending hname.1 hstem
  obtain ⟨outer, houter⟩ := exists_parts_push p (stem ++ ending)
  have hwalk := (resolve_eq_ok.mp h).2
  rw [String.ofList_toList] at hinner
  rw [houter, hinner, ← List.append_assoc, walk_concat, Fallible.bind_eq_ok_iff] at hwalk
  obtain ⟨place, -, hstep⟩ := hwalk
  refine ⟨.ofList tail, ?_, ?_, fun hslash => ?_⟩
  · obtain ⟨-, ⟨hnot, -⟩ | ⟨-, rfl, -⟩⟩ := step_eq_ok hstep
    · exact absurd (isName_of_isFileName hname) hnot
    · exact List.getLast?_concat
  · rcases hstem with hstem | ⟨before, hstem⟩ <;> rw [hstem] <;> simp +contextual
  · rcases hstem with hstem | ⟨before, hstem⟩
    · rw [← hstem, String.ofList_toList]
    · rw [hstem] at hslash
      simp at hslash

end LastName

end FileTree

end ServiceGen

import ServiceGen.CommandLine.Resolve
import ServiceGen.Proofs.Files.Path
import ServiceGen.Proofs.Text.Search

/-!
Where a path that a user writes leads.  It becomes an absolute path, which stays as it is from then
on, and lies below the working directory or below the home directory.  The main
statement is `absolute_lies_as_written`.
-/

namespace ServiceGen.Path

variable {p q cwd home : Path} {written rest : String}

/-- Behind an absolute path all components of a relative one follow, but for the dots. -/
theorem components_join_of_absolute (hp : p.isAbsolute = true) (hq : q.isAbsolute = false) :
    (p.join q).components = p.components ++ q.components.filter (· ≠ .here) := by
  have hne : p.text ≠ "" := by
    intro hnil
    simp [isAbsolute, hnil] at hp
  rw [components_join, if_neg (by simp [hq, hne])]

theorem join_of_absolute (hq : q.isAbsolute = true) (p : Path) : p.join q = q := by
  rw [join, if_pos hq]

/-- A path that is absolute, or put behind an absolute one, is absolute. -/
theorem isAbsolute_join (hp : p.isAbsolute = true) (q : Path) : (p.join q).isAbsolute = true := by
  cases hq : q.isAbsolute with
  | true => rwa [join_of_absolute hq]
  | false =>
      rw [isAbsolute_iff, components_join_of_absolute hp hq,
        List.head?_append_of_ne_nil _ (by simp [components_eq, hp])]
      exact (isAbsolute_iff p).mp hp

/-- Below an absolute path lies what a relative one leads to, and of the absolute ones what lies
there anyway. -/
theorem below_join_iff (hp : p.isAbsolute = true) (q : Path) :
    p.components <+: (p.join q).components ↔
      q.isAbsolute = false ∨ p.components <+: q.components := by
  cases hq : q.isAbsolute with
  | true => simp [join_of_absolute hq]
  | false => simp [components_join_of_absolute hp hq]

section Absolute

theorem absolute_tilde (rest : String) (cwd home : Path) :
    Path.absolute ("~/" ++ rest) cwd (some home) = home.join ⟨rest⟩ := by
  have hrest : Text.stripStart? "~/" ("~/" ++ rest) = some rest :=
    Text.stripStart?_eq_some_iff.mpr rfl
  unfold Path.absolute
  rw [hrest]
  rfl

theorem absolute_of_no_tilde (hwritten : ∀ rest, written ≠ "~/" ++ rest) (cwd : Path)
    (home : Option Path) : Path.absolute written cwd home = cwd.join ⟨written⟩ := by
  have hnone : Text.stripStart? "~/" written = none :=
    Option.eq_none_iff_forall_not_mem.mpr fun rest hrest =>
      hwritten rest (Text.stripStart?_eq_some_iff.mp hrest)
  unfold Path.absolute
  rw [hnone]
  rfl

/-- A path from the root does not begin with a tilde, and is left as it is. -/
theorem absolute_of_isAbsolute (h : (⟨written⟩ : Path).isAbsolute = true) (cwd : Path)
    (home : Option Path) : Path.absolute written cwd home = ⟨written⟩ := by
  have htilde : ∀ rest, written ≠ "~/" ++ rest := by
    rintro rest rfl
    simp [isAbsolute] at h
  rw [absolute_of_no_tilde htilde, join_of_absolute h]

theorem isAbsolute_absolute (hcwd : cwd.isAbsolute = true) (hhome : home.isAbsolute = true)
    (written : String) : (Path.absolute written cwd (some home)).isAbsolute = true := by
  by_cases htilde : ∃ rest, written = "~/" ++ rest
  · obtain ⟨rest, rfl⟩ := htilde
    rw [absolute_tilde]
    exact isAbsolute_join hhome _
  · rw [not_exists] at htilde
    rw [absolute_of_no_tilde htilde]
    exact isAbsolute_join hcwd _

/-- An absolute path lies where a user has written it, seen from a working directory and a home
directory.  Only the dots between slashes are no components of it. -/
structure LiesAsWritten (cwd home : Path) (written : String) (p : Path) : Prop where
  absolute : p.isAbsolute = true
  /-- Written again, wherever that is, the path is the same. -/
  settled : ∀ (cwd' : Path) (home' : Option Path), Path.absolute p.text cwd' home' = p
  root : (⟨written⟩ : Path).isAbsolute = true → p.text = written
  tilde : ∀ rest, written = "~/" ++ rest → (⟨rest⟩ : Path).isAbsolute = false →
    p.components = home.components ++ (⟨rest⟩ : Path).components.filter (· ≠ .here)
  /-- A slash behind that of the tilde is the root. -/
  tilde_root : ∀ rest, written = "~/" ++ rest → (⟨rest⟩ : Path).isAbsolute = true → p.text = rest
  /-- Nothing else leads out of the home directory. -/
  below_home_iff : ∀ rest, written = "~/" ++ rest → (home.components <+: p.components ↔
    (⟨rest⟩ : Path).isAbsolute = false ∨ home.components <+: (⟨rest⟩ : Path).components)
  relative : (⟨written⟩ : Path).isAbsolute = false → (∀ rest, written ≠ "~/" ++ rest) →
    p.components = cwd.components ++ (⟨written⟩ : Path).components.filter (· ≠ .here)

/-- What is written becomes an absolute path where it was written: an absolute path is left as it
is, and other paths lead below the working directory or, behind a tilde, below the home directory,
unless what is behind the tilde is absolute itself. -/
theorem absolute_lies_as_written (hcwd : cwd.isAbsolute = true) (hhome : home.isAbsolute = true)
    (written : String) :
    LiesAsWritten cwd home written (Path.absolute written cwd (some home)) where
  absolute := isAbsolute_absolute hcwd hhome written
  settled := absolute_of_isAbsolute (isAbsolute_absolute hcwd hhome written)
  root hroot := by rw [absolute_of_isAbsolute hroot]
  tilde := by
    rintro rest rfl hrest
    rw [absolute_tilde, components_join_of_absolute hhome hrest]
  tilde_root := by
    rintro rest rfl hrest
    rw [absolute_tilde, join_of_absolute hrest]
  below_home_iff := by
    rintro rest rfl
    rw [absolute_tilde]
    exact below_join_iff hhome ⟨rest⟩
  relative hrelative htilde := by
    rw [absolute_of_no_tilde htilde, components_join_of_absolute hcwd hrelative]

namespace AbsolutePathWitness

def work : Path := ⟨"/work"⟩

def dev : Path := ⟨"/home/dev/"⟩

/-- Dots and repeated slashes mean nothing behind the tilde, unless there are two slashes. -/
theorem written_paths_lie :
    work.isAbsolute = true ∧ dev.isAbsolute = true ∧
    (Path.absolute "~/./shop//api" work (some dev)).components =
      dev.components ++ [.name "shop", .name "api"] ∧
    (Path.absolute "~//home/dev/shop" work (some dev)).text = "/home/dev/shop" ∧
    dev.components <+: (Path.absolute "~//home/dev/shop" work (some dev)).components ∧
    (Path.absolute "../~/shop" work (some dev)).components =
      work.components ++ [.up, .name "~", .name "shop"] := by
  have hwork : work.isAbsolute = true := by decide +kernel
  have hdev : dev.isAbsolute = true := by decide +kernel
  have htilde := absolute_lies_as_written hwork hdev "~/./shop//api"
  have hroot := absolute_lies_as_written hwork hdev "~//home/dev/shop"
  have hrelative := absolute_lies_as_written hwork hdev "../~/shop"
  have hnoTilde : ∀ rest, "../~/shop" ≠ "~/" ++ rest := fun rest heq => by
    simpa using congrArg (·.toList.head?) heq
  refine ⟨hwork, hdev, ?_, ?_, ?_, ?_⟩
  · rw [htilde.tilde "./shop//api" (by decide +kernel) (by decide +kernel)]
    decide +kernel
  · exact hroot.tilde_root "/home/dev/shop" (by decide +kernel) (by decide +kernel)
  · exact (hroot.below_home_iff "/home/dev/shop" (by decide +kernel)).mpr (by decide +kernel)
  · rw [hrelative.relative (by decide +kernel) hnoTilde]
    decide +kernel

/-- A second slash behind the tilde leads out of the home directory. -/
theorem not_all_below_home :
    ¬ ∀ (cwd home : Path) (written : String), cwd.isAbsolute = true → home.isAbsolute = true →
      "~/".toList <+: written.toList →
        home.components <+: (Path.absolute written cwd (some home)).components := by
  intro hbelow
  have hetc := hbelow work dev "~//etc" (by decide +kernel) (by decide +kernel) (by decide +kernel)
  have hout : ¬ dev.components <+: (Path.absolute "~//etc" work (some dev)).components := by
    decide +kernel
  exact hout hetc

end AbsolutePathWitness

end Absolute

end ServiceGen.Path

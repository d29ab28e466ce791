import Mathlib.Data.List.Infix
import ServiceGen.Proofs.Text.Search
import ServiceGen.Proofs.Text.Trim
import ServiceGen.Stub.Registration

/-!
What the reader of a registration file makes of the text that the writer gives for some blocks, and
what can be said about the blocks that it finds in any text at all.
-/

namespace ServiceGen

/-- A block that is read back as it was written: its name is the visible part of one line, and its
body does not end the block early. -/
structure ProjectBlock.Printable (b : ProjectBlock) : Prop where
  name_trimmed : Text.trim b.name = b.name
  name_one_line : '\n' ∉ b.name.toList
  name_visible : Text.allBlank b.name = false
  body_unclosed : ¬ Registration.closing.toList <:+: b.body.toList

/-- A block that is found where it is printed, though perhaps under another name: its own name is a
line, with or without blank characters around it, and its body does not end the block early. -/
structure ProjectBlock.Legible (b : ProjectBlock) : Prop where
  name_one_line : '\n' ∉ b.name.toList
  name_ne_nil : b.name.toList ≠ []
  trim_unclosed : ¬ Registration.closing.toList <:+: (Text.trim b.body).toList

/-- The block without the blank characters around its body. -/
def ProjectBlock.trimmed (b : ProjectBlock) : ProjectBlock :=
  { b with body := Text.trim b.body }

/-- The block without the blank characters around its name and its body. -/
def ProjectBlock.asRead (b : ProjectBlock) : ProjectBlock :=
  ⟨Text.trim b.name, Text.trim b.body⟩

namespace ProjectBlock

variable {b : ProjectBlock}

theorem Printable.legible (hb : b.Printable) : b.Legible where
  name_one_line := hb.name_one_line
  name_ne_nil hnil := by
    have hvisible := hb.name_visible
    simp [Text.allBlank, hnil] at hvisible
  trim_unclosed hclosed := hb.body_unclosed (hclosed.trans (Text.trim_infix b.body))

theorem Printable.asRead_eq (hb : b.Printable) : b.asRead = b.trimmed := by
  rw [asRead, hb.name_trimmed]
  rfl

end ProjectBlock

namespace Registration

/-- The block that was found, without the blank characters around its name and its body. -/
def Found.block (f : Found) : ProjectBlock :=
  ⟨Text.trim (.ofList f.name), Text.trim (.ofList f.body)⟩

theorem projectBlocks_eq (text : String) :
    projectBlocks text = (blocksFrom 0 text.toList).map Found.block := rfl

/-- The characters of a block between its marks, marks included, and what follows. -/
def printed (name body rest : List Char) : List Char :=
  opening.toList ++ (name ++ '\n' :: '\n' :: (body ++ '\n' :: '\n' :: (closing.toList ++ rest)))

/-- The block that is found there. -/
def foundPrinted (name body : List Char) : Found where
  name
  body := '\n' :: '\n' :: (body ++ ['\n', '\n'])
  length := opening.length + (name.length + 1 + (body.length + 3) + closing.length)

/-- The registration file that holds these blocks. -/
def fileText (blocks : List ProjectBlock) : String :=
  header ++ "".intercalate (blocks.map blockText)

theorem newline_notMem_opening : '\n' ∉ opening.toList := by simp [opening]

theorem newline_notMem_closing : '\n' ∉ closing.toList := by simp [closing]

theorem closing_ne_nil : closing.toList ≠ [] := by simp [closing]

theorem blocksFrom_skip (skip : Nat) (cs : List Char) :
    blocksFrom skip cs = blocksFrom 0 (cs.drop skip) := by
  induction cs generalizing skip with
  | nil => simp [blocksFrom]
  | cons c cs ih =>
      cases skip with
      | zero => rfl
      | succ skip => rw [blocksFrom, ih, List.drop_succ_cons]

theorem found?_of_not_prefix {cs : List Char} (h : ¬ opening.toList <+: cs) :
    found? cs = none := by
  rw [found?, Text.strip?_eq_none_iff.mpr h]
  rfl

theorem blocksFrom_of_found {cs : List Char} {f : Found} (h : found? cs = some f)
    (hlength : f.length ≠ 0) : blocksFrom 0 cs = f :: blocksFrom 0 (cs.drop f.length) := by
  cases cs with
  | nil => simp [found?, opening, Text.strip?] at h
  | cons c cs =>
      obtain ⟨n, hn⟩ := Nat.exists_eq_succ_of_ne_zero hlength
      simp only [blocksFrom, h, hn, Nat.succ_eq_add_one, Nat.add_sub_cancel,
        List.drop_succ_cons]
      rw [blocksFrom_skip]

/-- A line in which no block begins is passed over. -/
theorem blocksFrom_append_cons {before : List Char} (hbefore : ¬ opening.toList <:+: before)
    (rest : List Char) : blocksFrom 0 (before ++ '\n' :: rest) = blocksFrom 0 rest := by
  induction before with
  | nil =>
      have hnone : found? ('\n' :: rest) = none := by
        apply found?_of_not_prefix
        intro hprefix
        exact hbefore (Text.prefix_of_prefix_append newline_notMem_opening hprefix).isInfix
      rw [List.nil_append, blocksFrom, hnone]
  | cons c before ih =>
      rw [List.infix_cons_iff, not_or] at hbefore
      have hnone : found? (c :: (before ++ '\n' :: rest)) = none := by
        apply found?_of_not_prefix
        exact fun hprefix =>
          hbefore.1 (Text.prefix_of_prefix_append newline_notMem_opening hprefix)
      rw [List.cons_append, blocksFrom, hnone]
      exact ih hbefore.2

theorem blocksFrom_newline (rest : List Char) :
    blocksFrom 0 ('\n' :: rest) = blocksFrom 0 rest :=
  @blocksFrom_append_cons [] (by simp [opening]) rest

theorem foundAfterOpening?_line {name body rest after : List Char} (hline : '\n' ∉ name)
    (hname : name ≠ []) (hcut : Text.cut? closing.toList rest = some (body, after)) :
    foundAfterOpening? (name ++ '\n' :: rest) =
      some ⟨name, '\n' :: body, name.length + 1 + body.length + closing.length⟩ := by
  have hkept : ∀ c ∈ name, (c != '\n') = true := by
    intro c hc
    rw [bne_iff_ne]
    exact fun heq => hline (heq ▸ hc)
  have htake : (name ++ '\n' :: rest).takeWhile (· != '\n') = name := by
    rw [List.takeWhile_append_of_pos hkept, List.takeWhile_cons_of_neg (by simp),
      List.append_nil]
  have hvisible : name.isEmpty = false := by simpa using hname
  simp only [foundAfterOpening?, htake, List.drop_left, hvisible, Bool.false_eq_true, if_false,
    List.drop_succ_cons, List.drop_zero, hcut, List.take_succ_cons, List.take_zero]
  rfl

/-- A printed block is found whole.  Line feeds stand on both sides of its body, so the first
closing mark behind the name is the one that was printed there. -/
theorem found?_printed {name body : List Char} (hline : '\n' ∉ name) (hname : name ≠ [])
    (hbody : ¬ closing.toList <:+: body) (rest : List Char) :
    found? (printed name body rest) = some (foundPrinted name body) := by
  have hskip := Text.cut?_cons closing_ne_nil newline_notMem_closing
  have hcut : Text.cut? closing.toList ('\n' :: (body ++ '\n' :: '\n' ::
      (closing.toList ++ rest))) = some ('\n' :: (body ++ ['\n', '\n']), rest) := by
    rw [hskip, Text.cut?_append_cons closing_ne_nil newline_notMem_closing hbody, hskip,
      Text.cut?_append_self]
    rfl
  rw [printed, found?, Text.strip?_append]
  simp only [Option.bind_eq_bind, Option.bind_some, foundAfterOpening?_line hline hname hcut]
  simp [foundPrinted, Nat.add_assoc]

theorem drop_printed (name body rest : List Char) :
    (printed name body rest).drop (foundPrinted name body).length = rest := by
  have hsplit : printed name body rest =
      (opening.toList ++ name ++ '\n' :: '\n' :: body ++ '\n' :: '\n' :: closing.toList) ++
        rest := by
    simp [printed]
  rw [hsplit]
  apply List.drop_left'
  simp only [foundPrinted, List.length_append, List.length_cons, String.length_toList]
  omega

theorem blocksFrom_printed {name body : List Char} (hline : '\n' ∉ name) (hname : name ≠ [])
    (hbody : ¬ closing.toList <:+: body) (rest : List Char) :
    blocksFrom 0 (printed name body rest) = foundPrinted name body :: blocksFrom 0 rest := by
  have hlength : (foundPrinted name body).length ≠ 0 := by simp [foundPrinted, opening]
  rw [blocksFrom_of_found (found?_printed hline hname hbody rest) hlength, drop_printed]

theorem toList_blockText_append (b : ProjectBlock) (rest : List Char) :
    (blockText b).toList ++ rest =
      '\n' :: printed b.name.toList (Text.trim b.body).toList ('\n' :: rest) := by
  simp [blockText, printed]

theorem toList_fileText (blocks : List ProjectBlock) :
    (fileText blocks).toList =
      header.toList ++ blocks.flatMap fun b => (blockText b).toList := by
  rw [fileText, String.toList_append, Text.toList_intercalate_nothing, List.flatMap_map]

theorem header_ends : ∃ front, header.toList = front ++ ['\n'] ∧ ¬ opening.toList <:+: front :=
  ⟨header.toList.dropLast, by decide +kernel, by decide +kernel⟩

theorem trim_foundPrinted (name : List Char) (body : String) :
    Text.trim (.ofList (foundPrinted name (Text.trim body).toList).body) = Text.trim body := by
  have hblank : ∀ c ∈ ['\n', '\n'], Text.isBlank c := by
    intro c hc
    have hnewline : c = '\n' := by simpa using hc
    rw [hnewline]
    decide
  have hsurrounded := Text.trim_surrounded hblank hblank (Text.trim body)
  simp only [Text.trim_trim, List.cons_append, List.nil_append] at hsurrounded
  exact hsurrounded

/-- Legible blocks are found one after the other, up to what follows them. -/
theorem blocksFrom_blockTexts {blocks : List ProjectBlock} (hblocks : ∀ b ∈ blocks, b.Legible)
    (rest : List Char) :
    (blocksFrom 0 ((blocks.flatMap fun b => (blockText b).toList) ++ rest)).map Found.block =
      blocks.map ProjectBlock.asRead ++ (blocksFrom 0 rest).map Found.block := by
  induction blocks with
  | nil => rfl
  | cons b blocks ih =>
      rw [List.forall_mem_cons] at hblocks
      obtain ⟨hb, hblocks⟩ := hblocks
      have hfound : (foundPrinted b.name.toList (Text.trim b.body).toList).block = b.asRead := by
        rw [Found.block, trim_foundPrinted, foundPrinted, String.ofList_toList]
        rfl
      rw [List.flatMap_cons, List.append_assoc, toList_blockText_append, blocksFrom_newline,
        blocksFrom_printed hb.name_one_line hb.name_ne_nil hb.trim_unclosed, blocksFrom_newline,
        List.map_cons, ih hblocks, hfound]
      rfl

/-- What is read from a registration file is read from its legible blocks, and then from the text of
the others. -/
theorem projectBlocks_fileText_append {blocks : List ProjectBlock}
    (hblocks : ∀ b ∈ blocks, b.Legible) (others : List ProjectBlock) :
    projectBlocks (fileText (blocks ++ others)) = blocks.map ProjectBlock.asRead ++
      (blocksFrom 0 (others.flatMap fun b => (blockText b).toList)).map Found.block := by
  obtain ⟨front, hheader, hfront⟩ := header_ends
  rw [projectBlocks_eq, toList_fileText, hheader, List.append_assoc, List.singleton_append,
    blocksFrom_append_cons hfront, List.flatMap_append]
  exact blocksFrom_blockTexts hblocks _

theorem projectBlocks_fileText_legible {blocks : List ProjectBlock}
    (hblocks : ∀ b ∈ blocks, b.Legible) :
    projectBlocks (fileText blocks) = blocks.map ProjectBlock.asRead := by
  have hread := projectBlocks_fileText_append hblocks []
  rw [List.append_nil] at hread
  rw [hread]
  exact List.append_nil _

/-- Printable blocks are read back from their registration file in order, with nothing lost but
the blank characters around their bodies. -/
theorem projectBlocks_fileText {blocks : List ProjectBlock}
    (hblocks : ∀ b ∈ blocks, b.Printable) :
    projectBlocks (fileText blocks) = blocks.map ProjectBlock.trimmed := by
  rw [projectBlocks_fileText_legible fun b hb => (hblocks b hb).legible]
  exact List.map_congr_left fun b hb => (hblocks b hb).asRead_eq

theorem closing_not_infix_cons {c : Char} (hc : c ≠ '#') {body : List Char}
    (hbody : ¬ closing.toList <:+: body) : ¬ closing.toList <:+: c :: body := by
  rw [List.infix_cons_iff, not_or]
  refine ⟨fun hprefix => hc ?_, hbody⟩
  have hhead : closing.toList = '#' :: closing.toList.tail := by decide +kernel
  rw [hhead, List.cons_prefix_cons] at hprefix
  exact hprefix.1.symm

theorem drop_length_takeWhile (keep : Char → Bool) (cs : List Char) :
    cs.drop (cs.takeWhile keep).length = cs.dropWhile keep := by
  conv_lhs =>
    arg 2
    rw [← List.takeWhile_append_dropWhile (p := keep) (l := cs)]
  exact List.drop_left

/-- The body that is found goes from the end of the name to the first closing mark, so that there
is none in it. -/
theorem foundAfterOpening?_sound {rest : List Char} {f : Found}
    (h : foundAfterOpening? rest = some f) :
    '\n' ∉ f.name ∧ ¬ closing.toList <:+: f.body := by
  have hline : '\n' ∉ rest.takeWhile (· != '\n') := by
    intro hmem
    simpa using List.mem_takeWhile_imp hmem
  simp only [foundAfterOpening?, drop_length_takeWhile] at h
  split at h
  · cases h
  · split at h
    · rename_i body after hcut
      cases h
      refine ⟨hline, ?_⟩
      have hbody := (Text.cut?_eq_some closing_ne_nil hcut).2
      cases hrest : rest.dropWhile (· != '\n') with
      | nil => simpa using hbody
      | cons c tail =>
          -- the line feed that ends the name belongs to the body
          have hhead := List.head?_dropWhile_not (· != '\n') rest
          rw [hrest] at hhead
          obtain rfl : c = '\n' := by simpa using hhead
          exact closing_not_infix_cons (by decide) hbody
    · split at h
      · -- the mark stands on the line of the name: a body of one character has no room for another
        rename_i place _
        cases h
        refine ⟨fun hmem => hline (List.mem_of_mem_take hmem), fun hinfix => ?_⟩
        have hlength := hinfix.length_le
        rw [String.length_toList, List.length_take] at hlength
        have hclosing : closing.length = 13 := by decide +kernel
        omega
      · cases h

theorem found?_of_mem_blocksFrom {skip : Nat} {cs : List Char} {f : Found}
    (hf : f ∈ blocksFrom skip cs) : ∃ text, found? text = some f := by
  induction cs generalizing skip with
  | nil => simp [blocksFrom] at hf
  | cons c cs ih =>
      cases skip with
      | succ skip => exact ih hf
      | zero =>
          rw [blocksFrom] at hf
          split at hf
          · rename_i g hg
            rcases List.mem_cons.mp hf with rfl | hlater
            · exact ⟨c :: cs, hg⟩
            · exact ih hlater
          · exact ih hf

/-- Whatever the text, the name of a block that was found in it is a line without blank characters
around it, and its body does not hold the closing mark. -/
theorem readable_of_mem_projectBlocks {text : String} {b : ProjectBlock}
    (hb : b ∈ projectBlocks text) :
    Text.trim b.name = b.name ∧ '\n' ∉ b.name.toList ∧ Text.trim b.body = b.body ∧
      ¬ closing.toList <:+: b.body.toList := by
  rw [projectBlocks_eq, List.mem_map] at hb
  obtain ⟨f, hf, rfl⟩ := hb
  obtain ⟨cs, hcs⟩ := found?_of_mem_blocksFrom hf
  rw [found?] at hcs
  simp only [Option.bind_eq_bind, Option.bind_eq_some_iff, Option.pure_def,
    Option.some.injEq] at hcs
  obtain ⟨rest, -, g, hg, rfl⟩ := hcs
  obtain ⟨hline, hbody⟩ := foundAfterOpening?_sound hg
  have hname := Text.trim_infix (.ofList g.name)
  have htext := Text.trim_infix (.ofList g.body)
  rw [String.toList_ofList] at hname htext
  exact ⟨Text.trim_trim _, fun hmem => hline (hname.subset hmem), Text.trim_trim _,
    fun hclosed => hbody (hclosed.trans htext)⟩

/-- Whatever the text, a block that was found in it can be printed and is trimmed, unless its name
is blank. -/
theorem printable_of_mem_projectBlocks {text : String} {b : ProjectBlock}
    (hb : b ∈ projectBlocks text) (hvisible : Text.allBlank b.name = false) :
    b.Printable ∧ b.trimmed = b := by
  obtain ⟨hname, hline, htrimmed, hbody⟩ := readable_of_mem_projectBlocks hb
  refine ⟨⟨hname, hline, hvisible, hbody⟩, ?_⟩
  rw [ProjectBlock.trimmed, htrimmed]

theorem map_trimmed_projectBlocks {text : String}
    (htext : ∀ b ∈ projectBlocks text, Text.allBlank b.name = false) :
    (projectBlocks text).map ProjectBlock.trimmed = projectBlocks text := by
  conv_rhs => rw [← List.map_id (projectBlocks text)]
  exact List.map_congr_left fun b hb => (printable_of_mem_projectBlocks hb (htext b hb)).2

end Registration

end ServiceGen

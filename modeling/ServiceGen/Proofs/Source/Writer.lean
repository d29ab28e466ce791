import ServiceGen.Proofs.Text.Lines
import ServiceGen.Source.Block

/-!
Programs for a writer, and the text that they write.  A writer carries its level and the start of a
line from step to step; `linesAllAt` says without either which lines a program stands for, and
`program_prints_structurally` that the program writes those lines.  Emitted modules are trees of
blocks: `putAll_eq` says that a writer gives every one of them the text that `Block.render` gives.
-/

namespace ServiceGen.Writer

section Blocks

variable {w : Writer}

/-- At the start of a line, writing a line writes what it is at the level of the writer. -/
theorem writeLine_eq (hstart : w.atLineStart = true) (text : String) :
    w.writeLine text = { w with text := w.text ++ Block.lineText w.level text } := by
  obtain ⟨before, level, _⟩ := w
  obtain rfl := hstart
  by_cases hempty : text = ""
  · subst hempty
    simp [writeLine, write, blank, Block.lineText, Text.allBlank]
  · cases hblank : Text.allBlank text <;>
      simp [writeLine, write, blank, Block.lineText, hempty, hblank, String.append_assoc]

theorem blank_eq (hstart : w.atLineStart = true) :
    w.blank = { w with text := w.text ++ "\n" } := by
  rw [blank, ← hstart]

/-- What the body does one level deeper is done at the level of the writer. -/
theorem indented_eq {body : Writer → Writer} {text : String}
    (hbody : body w.indent = { w.indent with text := w.text ++ text }) :
    w.indented body = { w with text := w.text ++ text } := by
  rw [indented, hbody, dedent, indent]
  simp

mutual

theorem put_eq : ∀ (b : Block) (w : Writer), w.atLineStart = true →
    w.put b = { w with text := w.text ++ Block.textAt w.level b }
  | .line text, _, hstart => writeLine_eq hstart text
  | .blank, _, hstart => blank_eq hstart
  | .nest body, w, hstart =>
      @indented_eq w (·.putAll body) _ (putAll_eq body w.indent hstart)

/-- A writer at the start of a line gives blocks the text that they have at its level, and is at
the same level and at the start of a line again. -/
theorem putAll_eq : ∀ (blocks : List Block) (w : Writer), w.atLineStart = true →
    w.putAll blocks = { w with text := w.text ++ Block.textAllAt w.level blocks }
  | [], w, _ => by simp [putAll]
  | b :: rest, w, hstart => by
      have hrest := putAll_eq rest { w with text := w.text ++ Block.textAt w.level b } hstart
      rw [putAll, put_eq b w hstart, hrest, Block.textAllAt_cons]
      simp [String.append_assoc]

end

theorem putAll_append (w : Writer) (before after : List Block) :
    w.putAll (before ++ after) = (w.putAll before).putAll after := by
  induction before generalizing w with
  | nil => rfl
  | cons b rest ih => exact ih (w.put b)

end Blocks

/-- A step of a program for a writer. -/
inductive Step where
  | line (text : String)
  | blank
  | colon (header : String) (body : List Step)
  | brace (header : String) (body : List Step)
  | indented (body : List Step)

namespace Step

mutual

def run (w : Writer) : Step → Writer
  | line text => w.writeLine text
  | blank => w.blank
  | colon header body => w.colonBlock header (runAll · body)
  | brace header body => w.braceBlock header (runAll · body)
  | indented body => w.indented (runAll · body)

/-- Carries out a program, step by step. -/
def runAll (w : Writer) : List Step → Writer
  | [] => w
  | step :: rest => runAll (run w step) rest

end

/-- The line that a text is below as many blocks as the level says: four spaces for each of them,
and the text. -/
def lineAt (level : Nat) (text : String) : String :=
  .ofList (List.replicate (4 * level) ' ') ++ text

mutual

/-- The lines of a step at a level: headers and closing braces are at that level, bodies one level
deeper, and empty lines have nothing in them. -/
def linesAt (level : Nat) : Step → List String
  | line text => [lineAt level text]
  | blank => [""]
  | colon header body => lineAt level (header ++ ":") :: linesAllAt (level + 1) body
  | brace header body =>
      lineAt level (header ++ " \x7b") :: (linesAllAt (level + 1) body ++ [lineAt level "\x7d"])
  | indented body => linesAllAt (level + 1) body

/-- The lines of a program at a level. -/
def linesAllAt (level : Nat) : List Step → List String
  | [] => []
  | step :: rest => linesAt level step ++ linesAllAt level rest

end

mutual

/-- The texts that a step writes as lines, at any depth. -/
def texts : Step → List String
  | line text => [text]
  | blank => []
  | colon _ body | brace _ body | indented body => textsAll body

def textsAll : List Step → List String
  | [] => []
  | step :: rest => texts step ++ textsAll rest

end

mutual

/-- The headers of the blocks in a step, at any depth. -/
def headers : Step → List String
  | line _ | blank => []
  | colon header body | brace header body => header :: headersAll body
  | indented body => headersAll body

def headersAll : List Step → List String
  | [] => []
  | step :: rest => headers step ++ headersAll rest

end

mutual

def blocks : Step → List Block
  | line text => [.line text]
  | blank => [.blank]
  | colon header body => Block.colon header (blocksAll body)
  | brace header body => Block.brace header (blocksAll body)
  | indented body => [.nest (blocksAll body)]

def blocksAll : List Step → List Block
  | [] => []
  | step :: rest => blocks step ++ blocksAll rest

end

mutual

theorem run_eq_putAll : ∀ (step : Step) (w : Writer), run w step = w.putAll (blocks step)
  | line _, _ => rfl
  | blank, _ => rfl
  | colon header body, w => by
      rw [run, colonBlock, Writer.indented, runAll_eq_putAll body]
      rfl
  | brace header body, w => by
      rw [run, braceBlock, Writer.indented, runAll_eq_putAll body]
      rfl
  | indented body, w => by
      rw [run, Writer.indented, runAll_eq_putAll body]
      rfl

/-- A program does what putting its tree does. -/
theorem runAll_eq_putAll :
    ∀ (program : List Step) (w : Writer), runAll w program = w.putAll (blocksAll program)
  | [], _ => rfl
  | step :: rest, w => by
      rw [runAll, run_eq_putAll step, runAll_eq_putAll rest, blocksAll, putAll_append]

end

theorem toList_margin (level : Nat) :
    (Block.margin level).toList = List.replicate (4 * level) ' ' := by
  rw [Block.margin, Text.toList_intercalate_nothing, List.flatMap_replicate]
  induction level with
  | zero => rfl
  | succ level ih =>
      rw [List.replicate_succ, List.flatten_cons, ih]
      rfl

/-- A text with something visible in it has the margin of its level. -/
theorem lineText_of_visible {text : String} (hvisible : Text.allBlank text = false) (level : Nat) :
    Block.lineText level text = lineAt level text ++ "\n" := by
  have hmargin : Block.margin level = .ofList (List.replicate (4 * level) ' ') := by
    rw [← String.toList_inj, toList_margin, String.toList_ofList]
  rw [Block.lineText, hvisible, hmargin]
  rfl

theorem visible_append {text : String} (hvisible : Text.allBlank text = false) (lead : String) :
    Text.allBlank (lead ++ text) = false := by
  rw [Text.allBlank] at hvisible ⊢
  rw [String.toList_append, List.all_append, hvisible, Bool.and_false]

mutual

theorem textAllAt_blocks : ∀ (step : Step) (level : Nat),
    (∀ text ∈ texts step, Text.allBlank text = false) →
      Block.textAllAt level (blocks step) = Text.unlines (linesAt level step)
  | line text, level, h => by
      have hvisible : Text.allBlank text = false := h text List.mem_cons_self
      rw [blocks, linesAt, Block.textAllAt_cons, Block.textAt, lineText_of_visible hvisible]
      simp
  | blank, level, _ => rfl
  | colon header body, level, h => by
      have hheader : Text.allBlank (header ++ ":") = false := visible_append rfl header
      rw [blocks, linesAt, Block.colon, Block.textAllAt_cons, Block.textAt,
        lineText_of_visible hheader, Block.textAllAt_cons, Block.textAt,
        textAllAt_blocksAll body (level + 1) h]
      simp
  | brace header body, level, h => by
      have hheader : Text.allBlank (header ++ " \x7b") = false := visible_append rfl header
      rw [blocks, linesAt, Block.brace, Block.textAllAt_cons, Block.textAt,
        lineText_of_visible hheader, Block.textAllAt_cons, Block.textAt,
        textAllAt_blocksAll body (level + 1) h, Block.textAllAt_cons, Block.textAt,
        lineText_of_visible rfl, Text.unlines_cons, Text.unlines_append]
      simp
  | indented body, level, h => by
      rw [blocks, linesAt, Block.textAllAt_cons, Block.textAt,
        textAllAt_blocksAll body (level + 1) h]
      simp

/-- The tree of a program has the text of its lines, when something is visible in every text. -/
theorem textAllAt_blocksAll : ∀ (program : List Step) (level : Nat),
    (∀ text ∈ textsAll program, Text.allBlank text = false) →
      Block.textAllAt level (blocksAll program) = Text.unlines (linesAllAt level program)
  | [], _, _ => rfl
  | step :: rest, level, h => by
      rw [textsAll, List.forall_mem_append] at h
      rw [blocksAll, linesAllAt, Block.textAllAt_append, textAllAt_blocks step level h.1,
        textAllAt_blocksAll rest level h.2, Text.unlines_append]

end

theorem newline_notMem_lineAt {text : String} (htext : '\n' ∉ text.toList) (level : Nat) :
    '\n' ∉ (lineAt level text).toList := by
  simp [lineAt, htext]

mutual

theorem newline_notMem_linesAt : ∀ (step : Step) (level : Nat),
    (∀ text ∈ texts step, '\n' ∉ text.toList) → (∀ header ∈ headers step, '\n' ∉ header.toList) →
      ∀ l ∈ linesAt level step, '\n' ∉ l.toList
  | line text, level, htexts, _ => by
      have htext : '\n' ∉ text.toList := htexts text List.mem_cons_self
      rw [linesAt, List.forall_mem_singleton]
      exact newline_notMem_lineAt htext level
  | blank, _, _, _ => by simp [linesAt]
  | colon header body, level, htexts, hheaders => by
      rw [headers, List.forall_mem_cons] at hheaders
      rw [linesAt, List.forall_mem_cons]
      exact ⟨newline_notMem_lineAt (by simp [hheaders.1]) level,
        newline_notMem_linesAllAt body (level + 1) htexts hheaders.2⟩
  | brace header body, level, htexts, hheaders => by
      rw [headers, List.forall_mem_cons] at hheaders
      rw [linesAt, List.forall_mem_cons, List.forall_mem_append, List.forall_mem_singleton]
      exact ⟨newline_notMem_lineAt (by simp [hheaders.1]) level,
        newline_notMem_linesAllAt body (level + 1) htexts hheaders.2,
        newline_notMem_lineAt (by simp) level⟩
  | indented body, level, htexts, hheaders =>
      newline_notMem_linesAllAt body (level + 1) htexts hheaders

theorem newline_notMem_linesAllAt : ∀ (program : List Step) (level : Nat),
    (∀ text ∈ textsAll program, '\n' ∉ text.toList) →
      (∀ header ∈ headersAll program, '\n' ∉ header.toList) →
        ∀ l ∈ linesAllAt level program, '\n' ∉ l.toList
  | [], _, _, _ => nofun
  | step :: rest, level, htexts, hheaders => by
      rw [textsAll, List.forall_mem_append] at htexts
      rw [headersAll, List.forall_mem_append] at hheaders
      rw [linesAllAt, List.forall_mem_append]
      exact ⟨newline_notMem_linesAt step level htexts.1 hheaders.1,
        newline_notMem_linesAllAt rest level htexts.2 hheaders.2⟩

end

/-- A program of nested blocks, with something visible in every text, writes the lines of its
structure, and leaves the level as it was and the writer at the start of a line.  From the
beginning on, that is the text of its tree; when no text and no header has a line feed in it, the
text is cut into these lines again. -/
theorem program_prints_structurally {program : List Step} {w : Writer}
    (hstart : w.atLineStart = true)
    (hvisible : ∀ text ∈ textsAll program, Text.allBlank text = false) :
    runAll w program =
      { w with text := w.text ++ Text.unlines (linesAllAt w.level program) } ∧
    (runAll start program).text = Block.render (blocksAll program) ∧
    ((∀ text ∈ textsAll program ++ headersAll program, '\n' ∉ text.toList) →
      Text.splitAt '\n' (runAll start program).text = linesAllAt 0 program ++ [""]) := by
  have hwritten : ∀ v : Writer, v.atLineStart = true → runAll v program =
      { v with text := v.text ++ Text.unlines (linesAllAt v.level program) } := by
    intro v hv
    rw [runAll_eq_putAll, putAll_eq _ v hv, textAllAt_blocksAll program v.level hvisible]
  have htext : (runAll start program).text = Text.unlines (linesAllAt 0 program) := by
    rw [hwritten start rfl]
    exact String.empty_append
  refine ⟨hwritten w hstart, ?_, fun honeLine => ?_⟩
  · rw [htext, Block.render, textAllAt_blocksAll program 0 hvisible]
  · rw [List.forall_mem_append] at honeLine
    rw [htext, Text.splitAt_unlines
      (newline_notMem_linesAllAt program 0 honeLine.1 honeLine.2)]

namespace StructureWitness

/-- Every kind of block, one inside the other, between lines and empty lines. -/
def shop : List Step :=
  [.colon "class Shop(object)"
      [.colon "def find(self)" [.line "return Item(", .indented [.line "id=1,", .blank], .line ")"],
        .blank,
        .brace "kinds =" [.line "1: 'book',"]],
    .line "shop = Shop()"]

/-- A writer that has written a line before, and is two levels deep. -/
def below : Writer := (start.writeLine "if True:").indent.indent

theorem shop_prints_structurally :
    below.atLineStart = true ∧ (∀ text ∈ textsAll shop, Text.allBlank text = false) ∧
    (runAll below shop).level = 2 ∧
    Text.splitAt '\n' (runAll start shop).text =
      ["class Shop(object):",
        "    def find(self):",
        "        return Item(",
        "            id=1,",
        "",
        "        )",
        "",
        "    kinds = \x7b",
        "        1: 'book',",
        "    \x7d",
        "shop = Shop()",
        ""] := by
  have hstart : below.atLineStart = true := by decide +kernel
  have hvisible : ∀ text ∈ textsAll shop, Text.allBlank text = false := by decide +kernel
  have honeLine : ∀ text ∈ textsAll shop ++ headersAll shop, '\n' ∉ text.toList := by
    decide +kernel
  obtain ⟨hwritten, -, hlines⟩ := program_prints_structurally hstart hvisible
  refine ⟨hstart, hvisible, ?_, ?_⟩
  · rw [hwritten]
    rfl
  · rw [hlines honeLine]
    decide +kernel

end StructureWitness

end Step

end ServiceGen.Writer

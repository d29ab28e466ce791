import ServiceGen.Text.Basic

/-!
Generated source text as a tree of lines.  A block is a line, an empty line, or blocks one level
deeper; its text follows from the tree alone.
-/

namespace ServiceGen

/-- A piece of generated source text. -/
inductive Block where
  | line (text : String)
  | blank
  | nest (body : List Block)

namespace Block

/-- What stands in front of a line for each level. -/
def indentUnit : String := "    "

/-- The blanks in front of a line at a level. -/
def margin (level : Nat) : String :=
  "".intercalate (List.replicate level indentUnit)

/-- A line at a level; a line without visible characters is not indented. -/
def lineText (level : Nat) (text : String) : String :=
  (if Text.allBlank text then text else margin level ++ text) ++ "\n"

mutual

/-- The text of a block at a level. -/
def textAt (level : Nat) : Block → String
  | line text => lineText level text
  | blank => "\n"
  | nest body => textAllAt (level + 1) body

def textAllAt (level : Nat) : List Block → String
  | [] => ""
  | b :: rest => textAt level b ++ textAllAt level rest

end

@[simp] theorem textAllAt_nil (level : Nat) : textAllAt level [] = "" := rfl

@[simp] theorem textAllAt_cons (level : Nat) (b : Block) (rest : List Block) :
    textAllAt level (b :: rest) = textAt level b ++ textAllAt level rest := rfl

/-- Blocks that stand one after the other are written one after the other. -/
theorem textAllAt_append (level : Nat) (before after : List Block) :
    textAllAt level (before ++ after) = textAllAt level before ++ textAllAt level after := by
  induction before with
  | nil => simp
  | cons b rest ih => simp [ih, String.append_assoc]

def render (blocks : List Block) : String :=
  textAllAt 0 blocks

/-- The text of a module is that of its parts, one after the other. -/
theorem render_append (before after : List Block) :
    render (before ++ after) = render before ++ render after :=
  textAllAt_append 0 before after

/-- A header with a colon and a body below it. -/
def colon (header : String) (body : List Block) : List Block :=
  [line (header ++ ":"), nest body]

def brace (header : String) (body : List Block) : List Block :=
  [line (header ++ " \x7b"), nest body, line "\x7d"]

/-- A line, deeper blocks, and a line that closes them. -/
def around (opening : String) (body : List Block) (closing : String) : List Block :=
  [line opening, nest body, line closing]

/-- The lines of a text, without blanks at their ends. -/
def lines (text : String) : List Block :=
  (Text.lines text).map fun l => line (Text.trimEnd l)

end Block

/-!
Writing source text step by step.  A `Writer` knows how deep it is and whether it is at the start
of a line, and puts the margin in front of the first visible text of a line.
-/

/-- The state of a writer: what is written, the level, and whether a line begins. -/
structure Writer where
  text : String
  level : Nat
  atLineStart : Bool
deriving DecidableEq, Repr

namespace Writer

def start : Writer := ⟨"", 0, true⟩

def write (w : Writer) (text : String) : Writer :=
  if text.isEmpty then w
  else if w.atLineStart && !Text.allBlank text then
    { w with text := w.text ++ (Block.margin w.level ++ text), atLineStart := false }
  else { w with text := w.text ++ text }

def blank (w : Writer) : Writer :=
  { w with text := w.text ++ "\n", atLineStart := true }

/-- Writes text and ends the line. -/
def writeLine (w : Writer) (text : String) : Writer :=
  (w.write text).blank

/-- Writes the lines of a text, without blanks at their ends. -/
def writeLines (w : Writer) (text : String) : Writer :=
  (Text.lines text).foldl (fun w l => w.writeLine (Text.trimEnd l)) w

/-- Goes one level deeper. -/
def indent (w : Writer) : Writer :=
  { w with level := w.level + 1 }

/-- Goes back one level, at the top to nowhere. -/
def dedent (w : Writer) : Writer :=
  { w with level := w.level - 1 }

/-- Runs the body one level deeper. -/
def indented (w : Writer) (body : Writer → Writer) : Writer :=
  (body w.indent).dedent

/-- Writes a header with a colon, and the body below it one level deeper. -/
def colonBlock (w : Writer) (header : String) (body : Writer → Writer) : Writer :=
  (w.writeLine (header ++ ":")).indented body

/-- Writes a header, and the body one level deeper between braces. -/
def braceBlock (w : Writer) (header : String) (body : Writer → Writer) : Writer :=
  ((w.writeLine (header ++ " \x7b")).indented body).writeLine "\x7d"

mutual

def put (w : Writer) : Block → Writer
  | .line text => w.writeLine text
  | .blank => w.blank
  | .nest body => (putAll w.indent body).dedent

def putAll (w : Writer) : List Block → Writer
  | [] => w
  | b :: rest => putAll (put w b) rest

end

end Writer

end ServiceGen

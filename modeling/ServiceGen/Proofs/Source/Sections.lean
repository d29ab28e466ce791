import Mathlib.Data.List.Basic
import ServiceGen.Source.Block

/-!
Reading the outline of generated text.  A section is a line with the deeper blocks right below it,
and text that is put together from parts has the sections of its parts, and their lines.
-/

namespace ServiceGen.Block

/-- The sections of a text, each with its header and its body. -/
def sections : List Block → List (String × List Block)
  | line header :: nest body :: rest => (header, body) :: sections rest
  | _ :: rest => sections rest
  | [] => []

/-- The text begins with blocks that are deeper than itself; they belong to the line before. -/
def beginsDeeper : List Block → Bool
  | nest _ :: _ => true
  | _ => false

@[simp] theorem sections_nil : sections [] = [] := rfl

@[simp] theorem sections_section (header : String) (body rest : List Block) :
    sections (line header :: nest body :: rest) = (header, body) :: sections rest := by
  rw [sections]

@[simp] theorem sections_blank (rest : List Block) : sections (blank :: rest) = sections rest := by
  rw [sections]
  simp

@[simp] theorem sections_nest (body rest : List Block) :
    sections (nest body :: rest) = sections rest := by
  rw [sections]
  simp

theorem sections_line (text : String) {rest : List Block} (hrest : beginsDeeper rest = false) :
    sections (line text :: rest) = sections rest := by
  rw [sections]
  rintro header body rest' - rfl
  simp [beginsDeeper] at hrest

@[simp] theorem sections_last_line (text : String) : sections [line text] = [] :=
  sections_line text rfl

@[simp] theorem sections_line_line (text next : String) (rest : List Block) :
    sections (line text :: line next :: rest) = sections (line next :: rest) :=
  sections_line text rfl

@[simp] theorem sections_line_blank (text : String) (rest : List Block) :
    sections (line text :: blank :: rest) = sections rest := by
  rw [sections_line text rfl, sections_blank]

theorem beginsDeeper_map_line (texts : List String) : beginsDeeper (texts.map line) = false := by
  cases texts <;> rfl

@[simp] theorem sections_map_line (texts : List String) : sections (texts.map line) = [] := by
  induction texts with
  | nil => rfl
  | cons text rest ih => rw [List.map_cons, sections_line text (beginsDeeper_map_line rest), ih]

theorem beginsDeeper_append {before after : List Block} (hbefore : beginsDeeper before = false)
    (hafter : beginsDeeper after = false) : beginsDeeper (before ++ after) = false := by
  cases before with
  | nil => exact hafter
  | cons b rest => cases b <;> simp_all [beginsDeeper]

/-- Text that does not belong to a line before it has its own sections. -/
theorem sections_append {before after : List Block} (hafter : beginsDeeper after = false) :
    sections (before ++ after) = sections before ++ sections after := by
  induction before using sections.induct with
  | case1 header body rest ih => simp [ih]
  | case2 b rest hb ih =>
      cases b with
      | blank => simpa using ih
      | nest body => simpa using ih
      | line text =>
          have hrest : beginsDeeper rest = false := by
            unfold beginsDeeper
            split
            · exact absurd rfl (hb text _ _ rfl)
            · rfl
          have hlonger := beginsDeeper_append hrest hafter
          rw [List.cons_append, sections_line text hlonger, sections_line text hrest, ih]
  | case3 => rfl

section Parts

variable {α : Type} {f : α → List Block} {items : List α}

theorem beginsDeeper_flatMap (hf : ∀ a ∈ items, beginsDeeper (f a) = false) :
    beginsDeeper (items.flatMap f) = false := by
  induction items with
  | nil => rfl
  | cons a rest ih =>
      rw [List.forall_mem_cons] at hf
      exact beginsDeeper_append hf.1 (ih hf.2)

/-- Text that is made of one part for each item has the sections of the parts. -/
theorem sections_flatMap (hf : ∀ a ∈ items, beginsDeeper (f a) = false) :
    sections (items.flatMap f) = items.flatMap fun a => sections (f a) := by
  induction items with
  | nil => rfl
  | cons a rest ih =>
      rw [List.forall_mem_cons] at hf
      rw [List.flatMap_cons, sections_append (beginsDeeper_flatMap hf.2), ih hf.2,
        List.flatMap_cons]

end Parts

def headers (blocks : List Block) : List String :=
  (sections blocks).map (·.1)

theorem headers_append {before after : List Block} (hafter : beginsDeeper after = false) :
    headers (before ++ after) = headers before ++ headers after := by
  rw [headers, sections_append hafter, List.map_append]
  rfl

theorem headers_flatMap {α : Type} {f : α → List Block} {items : List α}
    (hf : ∀ a ∈ items, beginsDeeper (f a) = false) :
    headers (items.flatMap f) = items.flatMap fun a => headers (f a) := by
  rw [headers, sections_flatMap hf, List.map_flatMap]
  rfl

@[simp] theorem sections_around (opening : String) (body : List Block) (closing : String) :
    sections (around opening body closing) = [(opening, body)] := by
  rw [around, sections_section, sections_line closing rfl, sections_nil]

@[simp] theorem sections_colon (header : String) (body : List Block) :
    sections (colon header body) = [(header ++ ":", body)] := by
  rw [colon, sections_section, sections_nil]

section Lines

/-- A line that is not nested stands in the text as it is. -/
theorem render_line (text : String) (rest : List Block) :
    render (line text :: rest) = text ++ "\n" ++ render rest := by
  have hmargin : margin 0 = "" := rfl
  simp [render, textAt, lineText, hmargin]

mutual

/-- The lines of a block, at any depth. -/
def linesIn : Block → List String
  | line text => [text]
  | blank => []
  | nest body => linesInAll body

def linesInAll : List Block → List String
  | [] => []
  | b :: rest => linesIn b ++ linesInAll rest

end

@[simp] theorem linesInAll_nil : linesInAll [] = [] := rfl

@[simp] theorem linesInAll_line (text : String) (rest : List Block) :
    linesInAll (line text :: rest) = text :: linesInAll rest := rfl

@[simp] theorem linesInAll_blank (rest : List Block) :
    linesInAll (blank :: rest) = linesInAll rest := rfl

@[simp] theorem linesInAll_nest (body rest : List Block) :
    linesInAll (nest body :: rest) = linesInAll body ++ linesInAll rest := rfl

@[simp] theorem linesInAll_append (before after : List Block) :
    linesInAll (before ++ after) = linesInAll before ++ linesInAll after := by
  induction before with
  | nil => rfl
  | cons b rest ih => simp [linesInAll, ih]

@[simp] theorem linesInAll_around (opening : String) (body : List Block) (closing : String) :
    linesInAll (around opening body closing) = opening :: linesInAll body ++ [closing] := rfl

@[simp] theorem linesInAll_colon (header : String) (body : List Block) :
    linesInAll (colon header body) = (header ++ ":") :: linesInAll body := by
  simp [colon]

theorem linesInAll_flatMap {α : Type} (f : α → List Block) (items : List α) :
    linesInAll (items.flatMap f) = items.flatMap fun a => linesInAll (f a) := by
  induction items with
  | nil => rfl
  | cons a rest ih => simp [ih]

theorem linesInAll_map {α : Type} (f : α → Block) (items : List α) :
    linesInAll (items.map f) = items.flatMap fun a => linesIn (f a) := by
  induction items with
  | nil => rfl
  | cons a rest ih => simp [linesInAll, ih]

@[simp] theorem linesInAll_map_line {α : Type} (f : α → String) (items : List α) :
    linesInAll (items.map fun a => line (f a)) = items.map f := by
  induction items with
  | nil => rfl
  | cons a rest ih => simp [ih]

end Lines

end ServiceGen.Block

/-!
Blank characters and the three ways a text is taken apart at them: trimming its ends, cutting it
into words, and cutting it into lines.  Looking for a text inside another one: `strip?` removes a
given beginning, `cut?` finds the first occurrence and gives what stands before and after it, and
`untilAny` keeps what stands before the first occurrence of any of several texts.  Everything is
stated on lists of characters; the versions on `String` only convert.
-/

namespace ServiceGen.Text

/-- The white space of Unicode: the property of that name, which has twenty-five characters. -/
def isBlank (c : Char) : Bool :=
  let n := c.toNat
  (0x9 ≤ n && n ≤ 0xd) || n == 0x20 || n == 0x85 || n == 0xa0 || n == 0x1680
    || (0x2000 ≤ n && n ≤ 0x200a) || n == 0x2028 || n == 0x2029 || n == 0x202f
    || n == 0x205f || n == 0x3000

/-- Characters without the blank ones at the front. -/
def trimFront (cs : List Char) : List Char :=
  cs.dropWhile isBlank

/-- Characters without the blank ones at the back. -/
def trimBack (cs : List Char) : List Char :=
  (cs.reverse.dropWhile isBlank).reverse

/-- A text without blank characters at either end. -/
def trim (s : String) : String :=
  .ofList (trimBack (trimFront s.toList))

/-- A text without blank characters at its end. -/
def trimEnd (s : String) : String :=
  .ofList (trimBack s.toList)

/-- A text that holds nothing but blank characters. -/
def allBlank (s : String) : Bool :=
  s.toList.all isBlank

/-- The pieces between the characters that satisfy `cut`, empty ones included: there is one piece
more than there are cuts. -/
def pieces (cut : Char → Bool) : List Char → List (List Char)
  | [] => [[]]
  | c :: cs =>
      if cut c then [] :: pieces cut cs
      else match pieces cut cs with
        | [] => [[c]]
        | p :: ps => (c :: p) :: ps

/-- A text cut at every occurrence of one character. -/
def splitAt (sep : Char) (s : String) : List String :=
  (pieces (· == sep) s.toList).map .ofList

/-- The runs of characters that are not blank. -/
def words (s : String) : List String :=
  ((pieces isBlank s.toList).filter (!·.isEmpty)).map .ofList

/-- A line without the carriage return that stands before its line feed. -/
def dropReturn (line : List Char) : List Char :=
  if line.getLast? == some '\r' then line.dropLast else line

/-- The lines of a text.  A line feed ends a line, together with one carriage return before it, so
a text that ends in a line feed has no empty last line, and a carriage return at the very end of
the text stays. -/
def linesOf : List (List Char) → List (List Char)
  | [] => []
  | [last] => if last.isEmpty then [] else [last]
  | line :: rest => dropReturn line :: linesOf rest

/-- The lines of a text, as `linesOf` cuts them. -/
def lines (s : String) : List String :=
  (linesOf (pieces (· == '\n') s.toList)).map .ofList

/-- What follows `lead` in `cs`, when `cs` begins with it. -/
def strip? : (lead cs : List Char) → Option (List Char)
  | [], cs => some cs
  | _ :: _, [] => none
  | l :: ls, c :: cs => if l = c then strip? ls cs else none

/-- What stands before and after the first occurrence of `needle`. -/
def cut? (needle : List Char) : List Char → Option (List Char × List Char)
  | [] => if needle.isEmpty then some ([], []) else none
  | c :: cs =>
      match strip? needle (c :: cs) with
      | some rest => some ([], rest)
      | none => (cut? needle cs).map fun (before, after) => (c :: before, after)

def occurs (needle hay : String) : Bool :=
  (cut? needle.toList hay.toList).isSome

/-- The characters before the first place where one of the `marks` begins. -/
def untilAny (marks : List (List Char)) : List Char → List Char
  | [] => []
  | c :: cs =>
      if marks.any fun m => (strip? m (c :: cs)).isSome then [] else c :: untilAny marks cs

/-- What precedes `tail` in `s`, when `s` ends with it. -/
def stripEnd? (tail s : String) : Option String :=
  (strip? tail.toList.reverse s.toList.reverse).map fun rest => .ofList rest.reverse

/-- What follows `lead` in `s`, when `s` begins with it. -/
def stripStart? (lead s : String) : Option String :=
  (strip? lead.toList s.toList).map .ofList

end ServiceGen.Text

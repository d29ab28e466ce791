import ServiceGen.Text.Basic
import ServiceGen.Text.Case
import ServiceGen.Text.Cluster

/-!
How declared names become the names of generated things: `pretty` for classes and messages, `snake`
for modules, `fileStem` for descriptors and stubs.  All three lose information, so two declared
names may meet in one generated name.
-/

namespace ServiceGen.Naming

open ServiceGen.Text

/-- A text with its first character in upper case and the rest as it was. -/
def upperFirst (s : String) : String :=
  match s.toList with
  | [] => ""
  | c :: cs => .ofList (upperChar c ++ cs)

/-- The name without underscores, each part beginning in upper case: `user_info` becomes
`UserInfo`, and capitals that were there stay. -/
def pretty (s : String) : String :=
  String.join ((splitAt '_' s).map upperFirst)

/-- The stem of descriptor and stub files: the pretty name in lower case. -/
def fileStem (s : String) : String :=
  lowerCase (pretty s)

/-- A name that generated code can use as it stands: an underscore or a letter of ASCII, then
underscores, letters and digits. -/
def isIdentifier (s : String) : Bool :=
  match s.toList with
  | [] => false
  | c :: cs => (c == '_' || c.isAlpha) && cs.all fun d => d == '_' || d.isAlphanum

/-- What a user-perceived character is for the word boundaries of a name. -/
inductive LetterKind where
  | separator | upper | lower | digit | other
deriving DecidableEq, Repr

/-- A cluster has a case when its upper and its lower case differ, and it is the one it equals. -/
def letterKind (cluster : List Char) : LetterKind :=
  if cluster == ['_'] || cluster == ['-'] || cluster == [' '] then .separator
  else if cluster.all Char.isDigit then .digit
  else
    let s := String.ofList cluster
    let up := upperCase s
    let low := lowerCase s
    if up == low then .other
    else if s == up then .upper
    else if s == low then .lower
    else .other

/-- A word ends between two neighbours of these kinds. -/
def changesWord : LetterKind → LetterKind → Bool
  | .lower, .upper | .lower, .digit | .upper, .digit | .digit, .lower | .digit, .upper => true
  | _, _ => false

/-- The words of a name, `word` being the one under way, last cluster first.  A separator ends a
word and is dropped; a change of kind ends one after its first cluster; of several capitals before
a small letter the last one begins the next word.  Empty words stay. -/
def wordsFrom (word : List (List Char)) : List (List Char) → List (List Char)
  | [] => [word.reverse.flatten]
  | g :: rest =>
      let kind := letterKind g
      if kind = .separator then word.reverse.flatten :: wordsFrom [] rest
      else
        let next := (rest.head?.map letterKind).getD .separator
        let afterNext := ((rest.drop 1).head?.map letterKind).getD .separator
        if changesWord kind next || (kind = .upper && next = .upper && afterNext = .lower) then
          (g :: word).reverse.flatten :: wordsFrom [] rest
        else wordsFrom (g :: word) rest

/-- The name in small letters with its words joined by underscores, used for modules and files. -/
def snake (s : String) : String :=
  if s.isEmpty then ""
  else "_".intercalate ((wordsFrom [] (clusters s.toList)).map fun w => lowerCase (.ofList w))

end ServiceGen.Naming

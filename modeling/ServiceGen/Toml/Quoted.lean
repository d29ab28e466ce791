import ServiceGen.Json.Lexer

/-!
The four kinds of strings in TOML: in single or in double quotes, on one line or on several.  Each
reader takes the text behind the opening quotes and gives the string with what follows the closing
ones.
-/

namespace ServiceGen.Toml

/-- A character that may stand in a string or a comment as it is. -/
def isPlain (c : Char) : Bool :=
  c == '\t' || (0x20 ≤ c.toNat && c.toNat != 0x7f)

/-- The character for a single letter after a backslash. -/
def unescape? : Char → Option Char
  | 'b' => some '\x08'
  | 't' => some '\t'
  | 'n' => some '\n'
  | 'f' => some '\x0c'
  | 'r' => some '\r'
  | 'e' => some '\x1b'
  | '\"' => some '\"'
  | '\\' => some '\\'
  | _ => none

/-- The character with a number that is written in hexadecimal digits. -/
def charOfHex? (digits : List Char) : Option Char := do
  let values ← digits.mapM Json.hexValue?
  let n := values.foldl (fun n d => n * 16 + d) 0
  if n < 0xd800 || (0xdfff < n && n < 0x110000) then some (Char.ofNat n) else none

/-- The line feed that begins a text, also after a carriage return, is dropped. -/
def dropNewline : List Char → List Char
  | '\n' :: cs => cs
  | '\r' :: '\n' :: cs => cs
  | cs => cs

/-- The text begins with the end of a line, perhaps after blanks. -/
def endsLine (cs : List Char) : Bool :=
  match cs.dropWhile fun c => c == ' ' || c == '\t' with
  | '\n' :: _ | '\r' :: '\n' :: _ => true
  | _ => false

/-- How many times `quote` stands at the front. -/
def quotesIn (quote : Char) (cs : List Char) : Nat :=
  (cs.takeWhile (· == quote)).length

/-- The string up to the quotes that close it.  `multiline` strings are closed by three quotes, of
which up to two more belong to the string.  In `escaping` strings a backslash begins an escape; at
the end of a line it joins the lines, and `joining` holds while blanks are left out for it.  `done`
holds the characters so far, last one first. -/
def body? (quote : Char) (multiline escaping joining : Bool) (done : List Char) :
    List Char → Option (String × List Char)
  | [] => none
  | c :: cs =>
      if joining && (c == ' ' || c == '\t' || c == '\n') then
        body? quote multiline escaping true done cs
      else if c == quote then
        if !multiline then some (.ofList done.reverse, cs)
        else
          let n := quotesIn quote (c :: cs)
          if n < 3 then body? quote multiline escaping false (c :: done) cs
          else
            let extra := min (n - 3) 2
            some (.ofList (done.reverse ++ List.replicate extra quote), cs.drop (extra + 2))
      else if c == '\n' then
        if multiline then body? quote multiline escaping false (c :: done) cs else none
      else if c == '\r' then
        if multiline && cs.head? == some '\n' then
          body? quote multiline escaping joining (if joining then done else c :: done) cs
        else none
      else if c == '\\' && escaping then
        match cs with
        | 'x' :: a :: b :: rest =>
            (charOfHex? [a, b]).bind fun d => body? quote multiline escaping false (d :: done) rest
        | 'u' :: a :: b :: e :: f :: rest =>
            (charOfHex? [a, b, e, f]).bind fun d =>
              body? quote multiline escaping false (d :: done) rest
        | 'U' :: a :: b :: e :: f :: g :: h :: i :: j :: rest =>
            (charOfHex? [a, b, e, f, g, h, i, j]).bind fun d =>
              body? quote multiline escaping false (d :: done) rest
        | d :: rest =>
            match unescape? d with
            | some d => body? quote multiline escaping false (d :: done) rest
            | none =>
                if multiline && endsLine (d :: rest) then
                  body? quote multiline escaping true done (d :: rest)
                else none
        | [] => none
      else if isPlain c then body? quote multiline escaping false (c :: done) cs
      else none

/-- The string that begins a text, with what follows it. -/
def string? : List Char → Option (String × List Char)
  | '\"' :: '\"' :: '\"' :: cs => body? '\"' true true false [] (dropNewline cs)
  | '\'' :: '\'' :: '\'' :: cs => body? '\'' true false false [] (dropNewline cs)
  | cs => lineString? cs
where
  /-- The string on one line that begins a text. -/
  lineString? : List Char → Option (String × List Char)
    | '\"' :: cs => body? '\"' false true false [] cs
    | '\'' :: cs => body? '\'' false false false [] cs
    | _ => none

end ServiceGen.Toml

import ServiceGen.Toml.Quoted

/-!
Values in TOML: strings, numbers, truth values, dates and times, arrays of values and inline tables.
No setting is a number with a fraction or a date, so these stay as they are written.
-/

namespace ServiceGen.Toml

/-!
Dates and times in TOML: a date, a time, or both, and with both an offset from universal time.
Seconds may be left out, and a minute may have a leap second.
-/

namespace Moment

/-- The number of two digits, if it is at most `bound`, and what follows it. -/
def pair? (bound : Nat) : List Char → Option (Nat × List Char)
  | a :: b :: rest =>
      let n := (a.toNat - 48) * 10 + (b.toNat - 48)
      if a.isDigit && b.isDigit && n ≤ bound then some (n, rest) else none
  | _ => none

def daysIn (year month : Nat) : Nat :=
  if month == 2 then
    if year % 4 == 0 && (year % 100 != 0 || year % 400 == 0) then 29 else 28
  else if month == 4 || month == 6 || month == 9 || month == 11 then 30
  else 31

/-- What follows the date that begins a text. -/
def afterDate? (cs : List Char) : Option (List Char) := do
  let (century, cs) ← pair? 99 cs
  let (year, cs) ← pair? 99 cs
  let '-' :: cs := cs | none
  let (month, cs) ← pair? 12 cs
  let '-' :: cs := cs | none
  let (day, cs) ← pair? (daysIn (century * 100 + year) month) cs
  if month == 0 || day == 0 then none else some cs

/-- What follows the fraction of a second, which has at least one digit if there is one. -/
def afterFraction? : List Char → Option (List Char)
  | '.' :: cs =>
      let rest := cs.dropWhile Char.isDigit
      if rest.length < cs.length then some rest else none
  | cs => some cs

/-- What follows the time that begins a text. -/
def afterTime? (cs : List Char) : Option (List Char) := do
  let (_, cs) ← pair? 23 cs
  let ':' :: cs := cs | none
  let (_, cs) ← pair? 59 cs
  match cs with
  | ':' :: cs => do
      let (_, cs) ← pair? 60 cs
      afterFraction? cs
  | cs => some cs

/-- The text is an offset from universal time, or empty. -/
def isOffset : List Char → Bool
  | [] | ['Z'] | ['z'] => true
  | '+' :: cs | '-' :: cs => (do
      let (_, cs) ← pair? 23 cs
      let ':' :: cs := cs | none
      let (_, cs) ← pair? 59 cs
      return cs.isEmpty).getD false
  | _ => false

/-- The text is a time with or without an offset. -/
def isTimeWithOffset (cs : List Char) : Bool :=
  ((afterTime? cs).map isOffset).getD false

/-- The text is a date, a time or both. -/
def holds (cs : List Char) : Bool :=
  match afterDate? cs with
  | some [] => true
  | some (c :: rest) => (c == 'T' || c == 't' || c == ' ') && isTimeWithOffset rest
  | none => afterTime? cs == some []

end Moment

/-- A value.  The entries of a table stand under the parts of their keys. -/
inductive Value where
  | text (s : String)
  | int (i : Int)
  | real (written : String)
  | bool (b : Bool)
  | moment (written : String)
  | array (items : List Value)
  | table (entries : List (List String × Value))

def skipBlanks (cs : List Char) : List Char :=
  cs.dropWhile fun c => c == ' ' || c == '\t'

/-- The text without blanks, ends of lines and comments in front; `inComment` holds inside of
one. -/
def skipLayout? (inComment : Bool) : List Char → Option (List Char)
  | [] => some []
  | c :: cs =>
      if c == '\n' then skipLayout? false cs
      else if c == '\r' then
        if cs.head? == some '\n' then skipLayout? inComment cs else none
      else if inComment then
        if isPlain c then skipLayout? true cs else none
      else if c == ' ' || c == '\t' then skipLayout? false cs
      else if c == '#' then skipLayout? true cs
      else some (c :: cs)

/-- What follows the end of a line, in front of which only blanks and a comment may stand. -/
def endLine? (inComment : Bool) : List Char → Option (List Char)
  | [] => some []
  | c :: cs =>
      if c == '\n' then some cs
      else if c == '\r' then
        if cs.head? == some '\n' then endLine? inComment cs else none
      else if inComment then
        if isPlain c then endLine? true cs else none
      else if c == ' ' || c == '\t' then endLine? false cs
      else if c == '#' then endLine? true cs
      else none

/-- A character of a key that is written without quotes. -/
def isKeyChar (c : Char) : Bool :=
  c.isAlphanum || c == '_' || c == '-'

/-- The key that begins a text, with what follows it. -/
def key? (cs : List Char) : Option (String × List Char) :=
  match cs with
  | '\"' :: _ | '\'' :: _ => string?.lineString? cs
  | _ =>
      let name := cs.takeWhile isKeyChar
      if name.isEmpty then none else some (.ofList name, cs.drop name.length)

/-- The digits of a number: each underscore stands between two of them. -/
def digitsOf? (isDigit : Char → Bool) : List Char → Option (List Char)
  | [] => none
  | [d] => if isDigit d then some [d] else none
  | d :: '_' :: rest => if isDigit d then (digitsOf? isDigit rest).map (d :: ·) else none
  | d :: rest => if isDigit d then (digitsOf? isDigit rest).map (d :: ·) else none

/-- The number that digits stand for in a base. -/
def valueIn (base : Nat) (digits : List Char) : Nat :=
  digits.foldl (fun n d => n * base + (Json.hexValue? d).getD 0) 0

/-- An integer in another base than ten. -/
def based? (base : Nat) (cs : List Char) : Option Nat :=
  (digitsOf? (fun c => (Json.hexValue? c).any (· < base)) cs).map (valueIn base)

/-- An integer without a sign; there is no needless zero in front. -/
def magnitude? (cs : List Char) : Option Nat := do
  let digits ← digitsOf? Char.isDigit cs
  if digits.head? == some '0' && digits.length != 1 then none else return valueIn 10 digits

/-- The integer that a word stands for. -/
def integer? (word : List Char) : Option Int :=
  match word with
  | '0' :: 'x' :: cs => (based? 16 cs).map Int.ofNat
  | '0' :: 'o' :: cs => (based? 8 cs).map Int.ofNat
  | '0' :: 'b' :: cs => (based? 2 cs).map Int.ofNat
  | '-' :: cs => (magnitude? cs).map fun n => -(n : Int)
  | '+' :: cs => (magnitude? cs).map Int.ofNat
  | cs => (magnitude? cs).map Int.ofNat

/-- The text without a sign in front. -/
def unsigned : List Char → List Char
  | '-' :: cs | '+' :: cs => cs
  | cs => cs

/-- A character that may be part of the digits of a number. -/
def isDigitOrJoint (c : Char) : Bool :=
  c.isDigit || c == '_'

def isExponent : List Char → Bool
  | [] => true
  | c :: cs => (c == 'e' || c == 'E') && (digitsOf? Char.isDigit (unsigned cs)).isSome

/-- The word is a number with a fraction or an exponent, or one of the two words for what is no
such number. -/
def isReal (word : List Char) : Bool :=
  let cs := unsigned word
  let rest := cs.dropWhile isDigitOrJoint
  if cs == ['i', 'n', 'f'] || cs == ['n', 'a', 'n'] then true
  else if (magnitude? (cs.takeWhile isDigitOrJoint)).isNone then false
  else match rest with
    | [] => false
    | '.' :: rest =>
        (digitsOf? Char.isDigit (rest.takeWhile isDigitOrJoint)).isSome
          && isExponent (rest.dropWhile isDigitOrJoint)
    | rest => isExponent rest

/-- The value that a bare word stands for. -/
def word? (word : List Char) : Option Value :=
  match String.ofList word with
  | "true" => some (.bool true)
  | "false" => some (.bool false)
  | written =>
      match integer? word with
      | some i => some (.int i)
      | none =>
          if isReal word then some (.real written)
          else if Moment.holds word then some (.moment written)
          else none

def isWordChar (c : Char) : Bool :=
  c.isAlphanum || c == '_' || c == '-' || c == '+' || c == '.' || c == ':'

/-- The length of the bare word that begins a text.  A blank may stand between a date and a
time. -/
def wordLength (cs : List Char) : Nat :=
  let word := cs.takeWhile isWordChar
  match cs.drop word.length with
  | ' ' :: d :: rest =>
      if d.isDigit && Moment.afterDate? word == some [] then
        word.length + 1 + ((d :: rest).takeWhile isWordChar).length
      else word.length
  | _ => word.length

/-- The parts of a dotted key that begins a text, at most `count` of them, with what follows. -/
def keys? : (count : Nat) → List Char → Option (List String × List Char)
  | 0, _ => none
  | count + 1, cs => do
      let (name, rest) ← key? (skipBlanks cs)
      match skipBlanks rest with
      | '.' :: rest =>
          let (names, rest) ← keys? count rest
          return (name :: names, rest)
      | rest => return ([name], rest)

/-- Two keys cannot stand in one table: one of them begins the other. -/
def collide (key other : List String) : Bool :=
  key.isPrefixOf other || other.isPrefixOf key

/-- How deep arrays and inline tables may be nested. -/
def maxNesting : Nat := 80

mutual

/-- The value that begins a text, with what follows it, in containers that may be nested `nesting`
deep.  The text is shorter than `size`. -/
def value? : (size nesting : Nat) → List Char → Option (Value × List Char)
  | 0, _, _ => none
  | size + 1, nesting, cs =>
      match cs, nesting with
      | '\"' :: _, _ | '\'' :: _, _ => (string? cs).map fun (s, rest) => (.text s, rest)
      | '[' :: rest, nesting + 1 => items? size nesting [] rest
      | '\x7b' :: rest, nesting + 1 => entries? size nesting [] rest
      | _, _ =>
          let length := wordLength cs
          (word? (cs.take length)).map fun v => (v, cs.drop length)

/-- The rest of an array behind the items that are done, last one first. -/
def items? : (size nesting : Nat) → (done : List Value) → List Char →
    Option (Value × List Char)
  | 0, _, _, _ => none
  | size + 1, nesting, done, cs => do
      match ← skipLayout? false cs with
      | ']' :: rest => return (.array done.reverse, rest)
      | cs =>
          let (v, rest) ← value? size nesting cs
          match ← skipLayout? false rest with
          | ',' :: rest => items? size nesting (v :: done) rest
          | ']' :: rest => return (.array (v :: done).reverse, rest)
          | _ => none

/-- The rest of an inline table behind the entries that are done, last one first. -/
def entries? : (size nesting : Nat) → (done : List (List String × Value)) → List Char →
    Option (Value × List Char)
  | 0, _, _, _ => none
  | size + 1, nesting, done, cs => do
      match ← skipLayout? false cs with
      | '\x7d' :: rest => return (.table done.reverse, rest)
      | cs =>
          let (key, rest) ← keys? size cs
          if done.any fun (other, _) => collide key other then none
          match ← skipLayout? false rest with
          | '=' :: rest =>
              let (v, rest) ← value? size nesting (← skipLayout? false rest)
              match ← skipLayout? false rest with
              | ',' :: rest => entries? size nesting ((key, v) :: done) rest
              | '\x7d' :: rest => return (.table ((key, v) :: done).reverse, rest)
              | _ => none
          | _ => none

end

end ServiceGen.Toml

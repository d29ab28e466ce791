import ServiceGen.Json.Numeral
import ServiceGen.Json.Tree

/-!
The tokens of a JSON text.  The lexer is a machine that looks at one character at a time: `Lexer`
is its state and `Lexer.step` its move.  A run of letters, digits, signs and points is one bare
word, and only at its end is it seen to be a number or a name.
-/

namespace ServiceGen.Json

inductive Token where
  | openBrace | closeBrace | openBracket | closeBracket | comma | colon
  | scalar (tree : Tree)
  /-- A string, which is plain when no backslash is in it; it has no value when its surrogates do
  not pair. -/
  | text (value : Option String) (plain : Bool)
  /-- What is no token. -/
  | junk

/-- What the lexer is in the middle of, with the characters it has so far, last one first.  Inside
of strings these are numbers, since half of a surrogate pair is no character. -/
inductive Lexeme where
  | nothing
  | bare (word : List Char)
  | text (done : List Nat) (plain : Bool)
  /-- After a backslash. -/
  | escape (done : List Nat)
  /-- Inside the four digits of a code unit, `left` of which are still to come. -/
  | unit (done : List Nat) (left value : Nat)

/-- The state of the lexer: the tokens so far, last one first, and the one under way. -/
structure Lexer where
  tokens : List Token
  lexeme : Lexeme

/-- The value of a hexadecimal digit of either case. -/
def hexValue? (c : Char) : Option Nat :=
  if c.isDigit then some (c.toNat - 48)
  else if 'a' ≤ c && c ≤ 'f' then some (c.toNat - 87)
  else if 'A' ≤ c && c ≤ 'F' then some (c.toNat - 55)
  else none

/-- The character that a single letter stands for after a backslash. -/
def unescape? : Char → Option Char
  | '\"' => some '\"'
  | '\\' => some '\\'
  | '/' => some '/'
  | 'b' => some '\x08'
  | 'f' => some '\x0c'
  | 'n' => some '\n'
  | 'r' => some '\r'
  | 't' => some '\t'
  | _ => none

/-- The first half of a surrogate pair. -/
def isHigh (n : Nat) : Bool :=
  0xd800 ≤ n && n < 0xdc00

/-- The second half of a surrogate pair. -/
def isLow (n : Nat) : Bool :=
  0xdc00 ≤ n && n < 0xe000

/-- The text of numbers of characters, in which two surrogates make one character and neither may
stand alone; `done` holds the characters so far, last one first. -/
def joinPairs? (done : List Char) : List Nat → Option String
  | [] => some (.ofList done.reverse)
  | [n] => if isHigh n || isLow n then none else some (.ofList (Char.ofNat n :: done).reverse)
  | n :: m :: rest =>
      if isHigh n then
        if isLow m then
          joinPairs? (Char.ofNat (0x10000 + (n - 0xd800) * 0x400 + (m - 0xdc00)) :: done) rest
        else none
      else if isLow n then none
      else joinPairs? (Char.ofNat n :: done) (m :: rest)

/-- The value that begins a bare word, and what follows it.  A number that is too large has no
value. -/
def bareFront? : List Char → Option (Tree × List Char)
  | 'n' :: 'u' :: 'l' :: 'l' :: rest => some (.null, rest)
  | 't' :: 'r' :: 'u' :: 'e' :: rest => some (.bool true, rest)
  | 'f' :: 'a' :: 'l' :: 's' :: 'e' :: rest => some (.bool false, rest)
  | cs => (Numeral.Written.front? cs).map fun (w, rest) =>
      ((w.numeral?.map .num).getD .unreadable, rest)

/-- The tokens of a bare word, last one first. -/
def bareTokens (word : List Char) : List Token :=
  match bareFront? word with
  | some (v, []) => [.scalar v]
  | some (v, _ :: _) => [.junk, .scalar v]
  | none => [.junk]

/-- A character that may be part of a bare word. -/
def isBare (c : Char) : Bool :=
  c.isAlphanum || c == '-' || c == '+' || c == '.'

namespace Lexer

/-- The state after one more token. -/
def emit (s : Lexer) (t : Token) : Lexer :=
  ⟨t :: s.tokens, .nothing⟩

/-- The state after a character that stands outside of strings and is no part of a bare word. -/
def punctuate (s : Lexer) (c : Char) : Lexer :=
  match c with
  | ' ' | '\n' | '\r' | '\t' => ⟨s.tokens, .nothing⟩
  | '\x7b' => s.emit .openBrace
  | '\x7d' => s.emit .closeBrace
  | '[' => s.emit .openBracket
  | ']' => s.emit .closeBracket
  | ',' => s.emit .comma
  | ':' => s.emit .colon
  | '\"' => ⟨s.tokens, .text [] true⟩
  | _ => s.emit .junk

/-- The state after one more character. -/
def step (s : Lexer) (c : Char) : Lexer :=
  match s.lexeme with
  | .nothing => if isBare c then { s with lexeme := .bare [c] } else s.punctuate c
  | .bare word =>
      if isBare c then { s with lexeme := .bare (c :: word) }
      else punctuate ⟨bareTokens word.reverse ++ s.tokens, .nothing⟩ c
  | .text done plain =>
      if c = '\\' then { s with lexeme := .escape done }
      else if c.toNat < 0x20 then s.emit .junk
      else if c = '\"' then s.emit (.text (joinPairs? [] done.reverse) plain)
      else { s with lexeme := .text (c.toNat :: done) plain }
  | .escape done =>
      if c = 'u' then { s with lexeme := .unit done 4 0 }
      else match unescape? c with
        | some d => { s with lexeme := .text (d.toNat :: done) false }
        | none => s.emit .junk
  | .unit done left value =>
      match hexValue? c with
      | none => s.emit .junk
      | some digit =>
          let v := value * 16 + digit
          if left ≤ 1 then { s with lexeme := .text (v :: done) false }
          else { s with lexeme := .unit done (left - 1) v }

/-- The tokens at the end of the text, last one first. -/
def finish (s : Lexer) : List Token :=
  match s.lexeme with
  | .nothing => s.tokens
  | .bare word => bareTokens word.reverse ++ s.tokens
  | _ => .junk :: s.tokens

end Lexer

def tokens (cs : List Char) : List Token :=
  (cs.foldl Lexer.step ⟨[], .nothing⟩).finish.reverse

end ServiceGen.Json

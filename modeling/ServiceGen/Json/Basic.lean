import ServiceGen.Number.Binary64
import ServiceGen.OrderedMap

/-!
JSON values.  An object is a list of members, in the order in which they are written and possibly
with a name twice; `collapse` gives the plain value that such a text stands for, in which the last
member of a name wins at the place of the first.

The compact text of a value has no blanks, and no escapes in strings but for the quote, the backslash
and the control characters.
-/

namespace ServiceGen

open ServiceGen.Number

/-- A number of a JSON text: an integer that fits into sixty-four bits, signed or unsigned, or a
floating-point number. -/
inductive Numeral where
  | int (value : Int)
  | real (value : Binary64)
deriving DecidableEq, Repr

/-- A JSON value with the members of its objects as they are written. -/
inductive Json where
  | null
  | bool (value : Bool)
  | num (value : Numeral)
  | str (value : String)
  | arr (items : List Json)
  | obj (members : List (String × Json))

instance : Inhabited Json := ⟨.null⟩

namespace Numeral

/-- The nearest floating-point number. -/
def toBinary64 : Numeral → Binary64
  | .int i => (Binary64.ofInt? i).getD default
  | .real x => x

/-- The number is zero, of either sign. -/
def isZero : Numeral → Bool
  | .int i => i == 0
  | .real x => x.isZero

def render : Numeral → String
  | .int i => toString i
  | .real x => x.render .json

end Numeral

namespace Json

mutual

/-- The value with every object's repeated names collapsed: the first place and the last value of
each. -/
def collapse : Json → Json
  | .null => .null
  | .bool b => .bool b
  | .num n => .num n
  | .str s => .str s
  | .arr items => .arr (collapseItems items)
  | .obj members => .obj (OrderedMap.ofList (collapseMembers members)).entries

def collapseItems : List Json → List Json
  | [] => []
  | item :: rest => item.collapse :: collapseItems rest

def collapseMembers : List (String × Json) → List (String × Json)
  | [] => []
  | (name, value) :: rest => (name, value.collapse) :: collapseMembers rest

end

def isNull : Json → Bool
  | .null => true
  | _ => false

/-- A loosely typed flag is set: it is neither `null`, `false`, zero nor empty. -/
def truthy : Json → Bool
  | .null => false
  | .bool b => b
  | .num n => !n.isZero
  | .str s => !s.isEmpty
  | .arr items => !items.isEmpty
  | .obj members => !members.isEmpty

def str? : Json → Option String
  | .str s => some s
  | _ => none

/-- The numeric value as a floating-point number. -/
def real? : Json → Option Binary64
  | .num n => some n.toBinary64
  | _ => none

/-- The value as a natural number of sixty-four bits. -/
def nat? : Json → Option Nat
  | .num (.int i) => if 0 ≤ i then some i.toNat else none
  | _ => none

end Json

namespace Json

/-- The hexadecimal digit of a number below sixteen, in small letters. -/
def hexDigit (n : Nat) : Char :=
  if n < 10 then Char.ofNat (48 + n) else Char.ofNat (87 + n)

/-- How a character is written inside a string. -/
def escapeChar (c : Char) : List Char :=
  if c = '\"' then ['\\', '\"']
  else if c = '\\' then ['\\', '\\']
  else if c = '\n' then ['\\', 'n']
  else if c = '\r' then ['\\', 'r']
  else if c = '\t' then ['\\', 't']
  else if c = '\x08' then ['\\', 'b']
  else if c = '\x0c' then ['\\', 'f']
  else if c.toNat < 0x20 then
    ['\\', 'u', '0', '0', hexDigit (c.toNat / 16), hexDigit (c.toNat % 16)]
  else [c]

def quote (s : String) : String :=
  .ofList ('\"' :: (s.toList.flatMap escapeChar ++ ['\"']))

mutual

def render : Json → String
  | .null => "null"
  | .bool true => "true"
  | .bool false => "false"
  | .num n => n.render
  | .str s => quote s
  | .arr items => "[" ++ ",".intercalate (renderItems items) ++ "]"
  | .obj members => "\x7b" ++ ",".intercalate (renderMembers members) ++ "\x7d"

def renderItems : List Json → List String
  | [] => []
  | item :: rest => item.render :: renderItems rest

def renderMembers : List (String × Json) → List String
  | [] => []
  | (name, value) :: rest => (quote name ++ ":" ++ value.render) :: renderMembers rest

end

/-- A loosely typed text: a string is itself, any other value its compact text. -/
def toText : Json → String
  | .str s => s
  | other => other.render

end Json

end ServiceGen

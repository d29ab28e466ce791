import ServiceGen.Json.Basic

/-!
Reading the numbers of a JSON text.  An integer that fits into sixty-four bits stays an integer.
Any other number becomes floating-point from the digits that fit into sixty-four bits: further
digits of the whole part only scale the number and further decimal places are dropped.
-/

namespace ServiceGen

open ServiceGen.Number

namespace Numeral

def digit (c : Char) : Nat :=
  c.toNat - 48

/-- The value of a list of decimal digits. -/
def digitsValue (ds : List Char) : Nat :=
  ds.foldl (fun n d => n * 10 + digit d) 0

/-- The significand with as many of the digits appended as keep it below `2 ^ 64`, and the digits
left over. -/
def absorb (significand : Nat) : List Char → Nat × List Char
  | [] => (significand, [])
  | d :: ds =>
      let n := significand * 10 + digit d
      if n < Nat.pow 2 64 then absorb n ds else (significand, d :: ds)

/-- A number as it is written: sign, whole part, decimal places if there is a point, and exponent
with its sign if there is one. -/
structure Written where
  negative : Bool
  whole : List Char
  places : Option (List Char)
  exponent : Option (Bool × List Char)

/-- The digits at the front, and what follows them. -/
def spanDigits (cs : List Char) : List Char × List Char :=
  (cs.takeWhile Char.isDigit, cs.dropWhile Char.isDigit)

/-- The exponent part of a number, if a text begins with one, and what follows it; `none` when it
begins with a mark of an exponent that has no digits. -/
def exponent? (cs : List Char) : Option (Option (Bool × List Char) × List Char) :=
  match cs with
  | 'e' :: rest | 'E' :: rest =>
      let (negative, rest) := match rest with
        | '-' :: rest => (true, rest)
        | '+' :: rest => (false, rest)
        | rest => (false, rest)
      let (digits, rest) := spanDigits rest
      if digits.isEmpty then none else some (some (negative, digits), rest)
  | rest => some (none, rest)

/-- The number that begins a text, and what follows it: a whole part without a needless zero in
front, places only with at least one digit, and an exponent only with at least one digit. -/
def Written.front? (cs : List Char) : Option (Written × List Char) := do
  let (negative, cs) := match cs with
    | '-' :: rest => (true, rest)
    | rest => (false, rest)
  let (whole, rest) := spanDigits cs
  guard (!whole.isEmpty && (whole.head? ≠ some '0' || whole.length == 1))
  match rest with
  | '.' :: rest =>
      let (places, rest) := spanDigits rest
      guard (!places.isEmpty)
      let (exponent, rest) ← exponent? rest
      return (⟨negative, whole, some places, exponent⟩, rest)
  | rest =>
      let (exponent, rest) ← exponent? rest
      return (⟨negative, whole, none, exponent⟩, rest)

/-- The floating-point number that is written; `none` when it is too large. -/
def Written.real? (w : Written) : Option Binary64 :=
  let places := w.places.getD []
  let (s, unread) := absorb 0 w.whole
  let (s, unreadPlaces) := absorb s places
  let scale : Int := (unread.length : Int) - (places.length - unreadPlaces.length : Nat)
  match w.exponent with
  | none => Binary64.ofScaled? w.negative s scale
  | some (negative, ds) =>
      let (e, unreadDigits) := absorb 0 ds
      if unreadDigits.isEmpty && e < Nat.pow 2 31 then
        Binary64.ofScaled? w.negative s (if negative then scale - e else scale + e)
      else if s = 0 || negative then some (.withSign w.negative ⟨0⟩)
      else none

/-- The number that is written; `none` when it is too large. -/
def Written.numeral? (w : Written) : Option Numeral :=
  let (n, unread) := absorb 0 w.whole
  if w.places.isNone && w.exponent.isNone && unread.isEmpty
      && (!w.negative || 0 < n && n ≤ Nat.pow 2 63) then
    some (.int (if w.negative then -(n : Int) else n))
  else w.real?.map .real

/-- The number that a text stands for, if it is one. -/
def ofText? (cs : List Char) : Option Numeral :=
  match Written.front? cs with
  | some (w, []) => w.numeral?
  | _ => none

end Numeral

end ServiceGen

/-!
Finite binary floating-point numbers of sixty-four bits.  A number is kept as its bits; `magnitude`
says what they stand for, and `ofRatio?` goes back by rounding to the nearest number, an exact half
to the even neighbour.  The arithmetic is exact on natural numbers up to that one rounding.
-/

namespace ServiceGen.Number

/-- A floating-point number, as sign, eleven exponent bits and fifty-two fraction bits. -/
structure Binary64 where
  bits : UInt64
deriving DecidableEq, Inhabited, Repr

namespace Binary64

/-- The sign bit is set. -/
def negative (x : Binary64) : Bool :=
  Nat.pow 2 63 ≤ x.bits.toNat

def unsignedBits (x : Binary64) : Nat :=
  x.bits.toNat % Nat.pow 2 63

/-- The number `m` and the exponent `e` for which the number is `m · 2 ^ e` but for its sign. -/
def magnitude (x : Binary64) : Nat × Int :=
  let field : Nat := x.unsignedBits / Nat.pow 2 52
  let fraction : Nat := x.unsignedBits % Nat.pow 2 52
  if field = 0 then (fraction, -1074) else (Nat.pow 2 52 + fraction, (field : Int) - 1075)

def isZero (x : Binary64) : Bool :=
  x.unsignedBits == 0

/-- The same number with the sign bit as given. -/
def withSign (negative : Bool) (x : Binary64) : Binary64 :=
  ⟨.ofNat (x.unsignedBits + if negative then Nat.pow 2 63 else 0)⟩

/-- `m · 2 ^ e` as a fraction. -/
def fraction (m : Nat) (e : Int) : Nat × Nat :=
  if e < 0 then (m, Nat.pow 2 (-e).toNat) else (m * Nat.pow 2 e.toNat, 1)

def ratio (x : Binary64) : Nat × Nat :=
  fraction x.magnitude.1 x.magnitude.2

/-- `num / den` rounded to the nearest integer, an exact half to the even one. -/
def roundHalfEven (num den : Nat) : Nat :=
  let q := num / den
  let r := num % den
  if 2 * r > den || (2 * r == den && q % 2 == 1) then q + 1 else q

/-- How often `2 ^ e` goes into `num / den`, as a fraction. -/
def scaled (num den : Nat) (e : Int) : Nat × Nat :=
  if e < 0 then (num * Nat.pow 2 (-e).toNat, den) else (num, den * Nat.pow 2 e.toNat)

/-- The exponent of the unit in the last place of `num / den`. -/
def unitExponent (num den : Nat) : Int :=
  let e : Int := (num.log2 : Int) - den.log2 - 53
  let (n, d) := scaled num den e
  max (-1074) (if n / d < Nat.pow 2 53 then e else e + 1)

/-- The number nearest to `num / den`, with the sign as given; `none` when it is too large. -/
def ofRatio? (negative : Bool) (num den : Nat) : Option Binary64 :=
  if num = 0 then some (withSign negative ⟨0⟩)
  else
    let e := unitExponent num den
    let (n, d) := scaled num den e
    let bits := roundHalfEven n d + (e + 1074).toNat * Nat.pow 2 52
    if bits < 2047 * Nat.pow 2 52 then some (withSign negative ⟨.ofNat bits⟩) else none

/-- The number nearest to an integer; `none` when it is too large. -/
def ofInt? (i : Int) : Option Binary64 :=
  ofRatio? (i < 0) i.natAbs 1

/-- The product, rounded; `none` when it is too large. -/
def mul? (x y : Binary64) : Option Binary64 :=
  let (a, b) := x.ratio
  let (c, d) := y.ratio
  ofRatio? (x.negative != y.negative) (a * c) (b * d)

/-- The quotient, rounded; `none` when it is too large or the divisor is zero. -/
def div? (x y : Binary64) : Option Binary64 :=
  let (a, b) := x.ratio
  let (c, d) := y.ratio
  if c = 0 then none else ofRatio? (x.negative != y.negative) (a * d) (b * c)

end Binary64

/-!
Decimal notation of floating-point numbers, both ways.  `ofScaled?` reads a significand and a power
of ten with one rounding for each of the two and one for their product, which is not always the
nearest number.  `shortest` chooses the fewest digits that read back, and of those the nearest.
-/

/-- The number `digits · 10 ^ exponent`. -/
structure Scientific where
  digits : Nat
  exponent : Int
deriving DecidableEq, Repr

/-- The same number without zeros at the end of its digits, looking at no more than `fuel`. -/
def Scientific.strip : (fuel : Nat) → Scientific → Scientific
  | 0, s => s
  | fuel + 1, s =>
      if s.digits % 10 == 0 then strip fuel ⟨s.digits / 10, s.exponent + 1⟩ else s

namespace Binary64

/-- The power of ten nearest to `10 ^ n`; past the largest one it stays there. -/
def powerOfTen (n : Nat) : Binary64 :=
  (ofRatio? false (Nat.pow 10 (min n 308)) 1).getD default

/-- `x / 10 ^ n`, in steps of at most 308 places. -/
def shiftDown (x : Binary64) (n : Nat) : Binary64 :=
  if n ≤ 308 then (x.div? (powerOfTen n)).getD default
  else if x.isZero then x
  else shiftDown ((x.div? (powerOfTen 308)).getD default) (n - 308)
termination_by n

/-- `significand · 10 ^ exponent`: the significand is rounded first, then scaled by a rounded power
of ten.  `none` when the number is too large. -/
def ofScaled? (negative : Bool) (significand : Nat) (exponent : Int) : Option Binary64 := do
  let x ← ofRatio? false significand 1
  let y ←
    if exponent < 0 then some (x.shiftDown exponent.natAbs)
    else if exponent ≤ 308 then x.mul? (powerOfTen exponent.natAbs)
    else if x.isZero then some x
    else none
  return y.withSign negative

/-- The largest `k` with `10 ^ k ≤ num / den`. -/
def decimalExponent (num den : Nat) : Int :=
  let places (n : Nat) : Nat := (Nat.toDigits 10 n).length - 1
  if den ≤ num then places (num / den)
  else
    let a := places (den / num)
    if den ≤ num * Nat.pow 10 a then -(a : Int) else -(a : Int) - 1

/-- `q · 2 ^ e` in units of `10 ^ k`, as a fraction. -/
def inUnits (q : Nat) (e k : Int) : Nat × Nat :=
  let (num, den) := fraction q e
  if k < 0 then (num * Nat.pow 10 (-k).toNat, den) else (num, den * Nat.pow 10 k.toNat)

/-- The numbers that round to `m · 2 ^ e` lie between these two counts of quarters of `2 ^ e`, the
ends included when `m` is even.  Below a power of two the gap is half as wide. -/
def quarterBounds (m : Nat) (e : Int) : Nat × Nat :=
  (4 * m - (if m = Nat.pow 2 52 && e > -1074 then 1 else 2), 4 * m + 2)

/-- The number `c · 10 ^ k` rounds to `m · 2 ^ e`. -/
def readsBack (m : Nat) (e k : Int) (c : Nat) : Bool :=
  let (low, high) := quarterBounds m e
  let (lowN, lowD) := inUnits low (e - 2) k
  let (highN, highD) := inUnits high (e - 2) k
  if m % 2 == 0 then lowN ≤ c * lowD && c * highD ≤ highN
  else lowN < c * lowD && c * highD < highN

/-- The multiple of `10 ^ k` that is nearest to `m · 2 ^ e`, if one of its two neighbours among
them rounds to it; of two equally near ones the even one. -/
def nearestMultiple? (m : Nat) (e k : Int) : Option Nat :=
  let (n, d) := inUnits m e k
  let down := n / d
  match readsBack m e k down, readsBack m e k (down + 1) with
  | true, true => some (roundHalfEven n d)
  | true, false => some down
  | false, true => some (down + 1)
  | false, false => none

/-- The first power of ten, from `10 ^ k` down, that has such a multiple. -/
def coarsest (m : Nat) (e k : Int) : (fuel : Nat) → Scientific
  | 0 => ⟨m, 0⟩
  | fuel + 1 =>
      match nearestMultiple? m e k with
      | some c => ⟨c, k⟩
      | none => coarsest m e (k - 1) fuel

/-- The fewest digits that read back as the magnitude of `x`, the nearest of those; seventeen are
always enough. -/
def shortest (x : Binary64) : Scientific :=
  let (m, e) := x.magnitude
  if m = 0 then ⟨0, 0⟩
  else
    let (num, den) := fraction m e
    (coarsest m e (decimalExponent num den) 17).strip 18

end Binary64

/-!
How the digits of a number are laid out as text.  A `Layout` says which decimal exponents are
written positionally and whether a whole number keeps a decimal place; `Binary64.render` follows
it.
-/

/-- A way of writing floating-point numbers. -/
structure Layout where
  /-- The lowest and the highest decimal exponent written positionally; `none` for all of them. -/
  positional : Option (Int × Int)
  /-- A whole number is written with one decimal place. -/
  keepsPlace : Bool

/-- Numbers in JSON text are written positionally from `0.00001` up to sixteen places before the
point and always show a decimal place; other ones have a signed exponent. -/
def Layout.json : Layout := ⟨some (-5, 15), true⟩

/-- Bounds in generated arguments are written without an exponent and without a needless place. -/
def Layout.plain : Layout := ⟨none, false⟩

/-- A text of `n` zeros. -/
def zeros (n : Nat) : List Char :=
  List.replicate n '0'

def digitsOf (n : Nat) : List Char :=
  Nat.toDigits 10 n

/-- Digits with the point after the first `point` of them, zeros filling what is missing. -/
def positionalText (digits : List Char) (point : Int) (keepsPlace : Bool) : List Char :=
  if point ≤ 0 then '0' :: '.' :: (zeros (-point).toNat ++ digits)
  else
    let p := point.toNat
    if digits.length ≤ p then
      digits ++ zeros (p - digits.length) ++ (if keepsPlace then ['.', '0'] else [])
    else digits.take p ++ '.' :: digits.drop p

/-- Digits with the point after the first one and the exponent with its sign. -/
def exponentText (digits : List Char) (exponent : Int) : List Char :=
  let mark := if exponent < 0 then ['e', '-'] else ['e', '+']
  digits.take 1 ++ (if digits.length ≤ 1 then [] else '.' :: digits.drop 1) ++ mark
    ++ digitsOf exponent.natAbs

/-- The digits of a positive number, laid out. -/
def Layout.text (layout : Layout) (s : Scientific) : List Char :=
  let digits := digitsOf s.digits
  let point := (digits.length : Int) + s.exponent
  match layout.positional with
  | some (low, high) =>
      if low ≤ point - 1 && point - 1 ≤ high then positionalText digits point layout.keepsPlace
      else exponentText digits (point - 1)
  | none => positionalText digits point layout.keepsPlace

/-- The text of a number, zero being a number with one digit and a sign of its own. -/
def Binary64.render (layout : Layout) (x : Binary64) : String :=
  .ofList ((if x.negative then ['-'] else []) ++ layout.text x.shortest)

end ServiceGen.Number

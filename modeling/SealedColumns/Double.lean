/-!
Binary64 numbers by their bit patterns: rounding a ratio to the nearest one, the decimal reading
that JSON numbers use, and the shortest decimal text that reads back as the same number.
-/
namespace SealedColumns

structure Double where
  bits : UInt64
deriving DecidableEq, Repr

namespace Double

def signBit : Nat := Nat.pow 2 63

def leadingBit : Nat := Nat.pow 2 52

def zero : Double := ⟨0⟩

def isNegative (x : Double) : Bool := signBit ≤ x.bits.toNat

def negate (x : Double) : Double :=
  ⟨UInt64.ofNat ((x.bits.toNat + signBit) % (2 * signBit))⟩

def isZero (x : Double) : Bool := x.bits.toNat % signBit == 0

/-- The exponent field; subnormal numbers count as having field one. -/
def scale (x : Double) : Nat := max (x.bits.toNat % signBit / leadingBit) 1

def significand (x : Double) : Nat :=
  let fraction := x.bits.toNat % leadingBit
  if x.bits.toNat % signBit < leadingBit then fraction else fraction + leadingBit

def numerator (x : Double) : Nat := x.significand * Nat.pow 2 x.scale

def denominator : Nat := Nat.pow 2 1075

def roundDiv (num den : Nat) : Nat :=
  let q := num / den
  let r := num % den
  if den < 2 * r || (2 * r == den && q % 2 == 1) then q + 1 else q

def roundShifted (num den : Nat) (shift : Int) : Nat :=
  if 0 ≤ shift then roundDiv (num * Nat.pow 2 shift.toNat) den
  else roundDiv num (den * Nat.pow 2 (-shift).toNat)

/-- The nearest number to a ratio, ties to even; `none` above the finite range. -/
def ofRatio? (num den : Nat) : Option Double :=
  if num == 0 then some zero
  else
    let guess : Int := 52 - ((Nat.log2 num : Int) - Nat.log2 den)
    let tooSmall := if 0 ≤ guess then num * Nat.pow 2 guess.toNat < den * leadingBit
      else num < den * Nat.pow 2 (-guess).toNat * leadingBit
    let shift : Int := min 1074 (if tooSmall then guess + 1 else guess)
    let m := roundShifted num den shift
    let code := (1074 - shift).toNat * leadingBit + m
    if code < 2047 * leadingBit then some ⟨UInt64.ofNat code⟩ else none

def mul? (x y : Double) : Option Double :=
  ofRatio? (x.numerator * y.numerator) (denominator * denominator)

def div? (x y : Double) : Option Double :=
  ofRatio? x.numerator y.numerator

def powerOfTen (n : Nat) : Double := (ofRatio? (Nat.pow 10 n) 1).getD zero

/-- Scales by a negative power of ten, in steps of at most 308. -/
def divideByPower : Nat → Double → Nat → Option Double
  | 0, x, _ => some x
  | fuel + 1, x, n =>
    if n ≤ 308 then x.div? (powerOfTen n)
    else if x.isZero then some x
    else do divideByPower fuel (← x.div? (powerOfTen 308)) (n - 308)

/-- `significand * 10 ^ exponent`, computed with one rounding for the significand and one for each
scaling. `none` when the result is too large. -/
def ofDecimal? (significand : Nat) (exponent : Int) : Option Double := do
  let x ← ofRatio? significand 1
  if 0 ≤ exponent then
    if exponent ≤ 308 then x.mul? (powerOfTen exponent.toNat)
    else if x.isZero then some x else none
  else
    let n := (-exponent).toNat
    divideByPower (n / 308 + 1) x n

/-- The least `k` with `den ≤ num * 10 ^ k`. -/
def scaleUp (num den : Nat) : Nat → Nat → Nat
  | 0, k => k
  | fuel + 1, k => if den ≤ num then k else scaleUp (num * 10) den fuel (k + 1)

/-- The decimal exponent of a positive ratio: the `e` with `10 ^ e ≤ num / den < 10 ^ (e + 1)`. -/
def exponentOfTen (num den : Nat) : Int :=
  if den ≤ num then ((Nat.toDigits 10 (num / den)).length : Int) - 1
  else -(scaleUp num den 400 0 : Int)

def ofScaled? (c : Nat) (k : Int) : Option Double :=
  if 0 ≤ k then ofRatio? (c * Nat.pow 10 k.toNat) 1 else ofRatio? c (Nat.pow 10 (-k).toNat)

/-- The neighbour of the magnitude on the grid of multiples of `10 ^ k` that reads back, the nearer
one if both do. -/
def neighbour? (x : Double) (k : Int) : Option Nat :=
  let (num, den) := if 0 ≤ k then (x.numerator, denominator * Nat.pow 10 k.toNat)
    else (x.numerator * Nat.pow 10 (-k).toNat, denominator)
  let low := num / den
  let rest := num % den
  let reads := fun c => decide (ofScaled? c k = some x)
  let nearer := if 2 * rest < den || (2 * rest == den && low % 2 == 0) then low else low + 1
  let other := if nearer == low then low + 1 else low
  if reads nearer then some nearer else if reads other then some other else none

/-- Tries one significant digit, then two, and so on. -/
def shortestFrom (x : Double) (e : Int) : Nat → Int → Nat × Int
  | 0, k => ((neighbour? x k).getD 0, k)
  | fuel + 1, k =>
    match neighbour? x k with
    | some c => (c, k)
    | none => shortestFrom x e fuel (k - 1)

/-- The fewest digits that read back as the magnitude, and the exponent of the last one. -/
def shortest (x : Double) : Nat × Int :=
  let e := exponentOfTen x.numerator denominator
  shortestFrom x e 17 e

def digits (x : Double) : List Char × Int :=
  let (c, k) := shortest x
  let ds := Nat.toDigits 10 c
  ((ds.reverse.dropWhile (· == '0')).reverse, k + ds.length - 1)

/-- Positional from `1e-5` below `1e16`, with a decimal point in every case; else one digit, the
others behind a point, and an exponent with its sign. -/
def renderMagnitude (ds : List Char) (e : Int) : List Char :=
  if 0 ≤ e && e ≤ 15 then
    let whole := e.toNat + 1
    if ds.length ≤ whole then ds ++ List.replicate (whole - ds.length) '0' ++ ['.', '0']
    else ds.take whole ++ '.' :: ds.drop whole
  else if -5 ≤ e && e < 0 then
    '0' :: '.' :: List.replicate ((-e).toNat - 1) '0' ++ ds
  else
    let mark := if 0 ≤ e then "e+" else "e-"
    ds.take 1 ++ (if 1 < ds.length then '.' :: ds.drop 1 else []) ++ mark.toList ++
      Nat.toDigits 10 e.natAbs

def render (x : Double) : String :=
  let sign := if x.isNegative then ['-'] else []
  if x.isZero then String.ofList (sign ++ ['0', '.', '0'])
  else
    let (ds, e) := digits ⟨UInt64.ofNat (x.bits.toNat % signBit)⟩
    String.ofList (sign ++ renderMagnitude ds e)

end Double

end SealedColumns

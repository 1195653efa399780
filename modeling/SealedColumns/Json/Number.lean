import SealedColumns.Double
import SealedColumns.Text.Decimal

/-!
Numbers of JSON texts: an integer that fits into 64 bits, signed or unsigned, stays one; every
other number is a double.
-/
namespace SealedColumns.Json

open SealedColumns.Text

inductive Number where
  | integer (value : Int)
  | double (value : Double)
deriving DecidableEq, Repr

namespace Number

def render : Number → String
  | .integer value => toString value
  | .double value => value.render

def takeDigits : Nat → List Char → Nat × List Char
  | n, [] => (n, [])
  | n, d :: ds =>
    let next := n * 10 + (d.toNat - 48)
    if next < word64 then takeDigits next ds else (n, d :: ds)

def spanDigits (cs : List Char) : List Char × List Char :=
  (cs.takeWhile Char.isDigit, cs.dropWhile Char.isDigit)

/-- A number with a fraction or an exponent, or too long for an integer. An exponent beyond 31 bits
gives zero unless the number would be too large. -/
def decimal? (negative : Bool) (significand : Nat) (exponent : Int) : Option Number := do
  let limit : Int := 2147483648
  let x ← if exponent < -limit then some Double.zero
    else if limit ≤ exponent then (if significand == 0 then some Double.zero else none)
    else Double.ofDecimal? significand exponent
  some (.double (if negative then x.negate else x))

def readExponent : List Char → Option (Option Int × List Char)
  | c :: rest =>
    if c == 'e' || c == 'E' then
      let (negative, rest) := match rest with
        | '-' :: rest => (true, rest)
        | '+' :: rest => (false, rest)
        | _ => (false, rest)
      let (ds, rest) := spanDigits rest
      if ds.isEmpty then none
      else
        let n : Int := digitsValue ds
        some (some (if negative then -n else n), rest)
    else some (none, c :: rest)
  | [] => some (none, [])

def whole (negative : Bool) (significand : Nat) : Option Number :=
  if negative then
    if significand == 0 || 9223372036854775808 < significand then decimal? true significand 0
    else some (.integer (-(significand : Int)))
  else some (.integer significand)

/-- An unsigned number: no leading zeros, a digit on each side of the point. Digits that the
significand cannot take only move the exponent when they stand before the point. -/
def readMagnitude (negative : Bool) (cs : List Char) : Option (Number × List Char) := do
  let (ds, rest) := spanDigits cs
  if ds.isEmpty || (ds.head? == some '0' && 1 < ds.length) then none
  let (significand, excess) := takeDigits 0 ds
  match rest with
  | '.' :: rest =>
    let (fraction, rest) := spanDigits rest
    if fraction.isEmpty then none
    let (significand, unread) := takeDigits significand fraction
    let exponent : Int := excess.length - (fraction.length - unread.length : Nat)
    let (power, rest) ← readExponent rest
    some (← decimal? negative significand (exponent + power.getD 0), rest)
  | _ =>
    let (power, rest) ← readExponent rest
    match power with
    | some power => some (← decimal? negative significand (excess.length + power), rest)
    | none =>
      if excess.isEmpty then some (← whole negative significand, rest)
      else some (← decimal? negative significand excess.length, rest)

def read : List Char → Option (Number × List Char)
  | '-' :: rest => readMagnitude true rest
  | cs => readMagnitude false cs

end Number

end SealedColumns.Json

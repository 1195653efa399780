import SealedColumns.Text.Utf8

/-!
The standard Base64 alphabet with required padding. A text is accepted only in the one form that
encoding gives it: no missing padding, no padding in another place, no stray bits at the end.
-/
namespace SealedColumns.Text

inductive Base64Error where
  | invalidSymbol (symbol : UInt8) (offset : Nat)
  | invalidLength (length : Nat)
  | invalidLastSymbol (symbol : UInt8) (offset : Nat)
  | invalidPadding
deriving DecidableEq, Repr

def Base64Error.message : Base64Error → String
  | .invalidSymbol symbol offset => s!"Invalid symbol {symbol.toNat}, offset {offset}."
  | .invalidLength length => s!"Invalid input length: {length}"
  | .invalidLastSymbol symbol offset => s!"Invalid last symbol {symbol.toNat}, offset {offset}."
  | .invalidPadding => "Invalid padding"

def base64Symbol (n : Nat) : Char :=
  if n < 26 then Char.ofNat (65 + n)
  else if n < 52 then Char.ofNat (71 + n)
  else if n < 62 then Char.ofNat (n - 4)
  else if n == 62 then '+' else '/'

def base64Value? (b : UInt8) : Option Nat :=
  let n := b.toNat
  if 65 ≤ n && n ≤ 90 then some (n - 65)
  else if 97 ≤ n && n ≤ 122 then some (n - 71)
  else if 48 ≤ n && n ≤ 57 then some (n + 4)
  else if n == 43 then some 62
  else if n == 47 then some 63
  else none

def padding : UInt8 := 61

def encodeBase64Chars : Bytes → List Char
  | a :: b :: c :: rest =>
    let n := a.toNat * 65536 + b.toNat * 256 + c.toNat
    base64Symbol (n / 262144) :: base64Symbol (n / 4096 % 64) :: base64Symbol (n / 64 % 64) ::
      base64Symbol (n % 64) :: encodeBase64Chars rest
  | [a, b] =>
    let n := a.toNat * 256 + b.toNat
    [base64Symbol (n / 1024), base64Symbol (n / 16 % 64), base64Symbol (n % 16 * 4), '=']
  | [a] => [base64Symbol (a.toNat / 4), base64Symbol (a.toNat % 4 * 16), '=', '=']
  | [] => []

def encodeBase64 (bytes : Bytes) : String := String.ofList (encodeBase64Chars bytes)

/-- The values of the symbols of one group, read from `offset` on. -/
def symbolValues : Nat → Bytes → Except Base64Error (List Nat)
  | _, [] => .ok []
  | offset, b :: rest =>
    match base64Value? b with
    | none => .error (.invalidSymbol b offset)
    | some v => do
      let vs ← symbolValues (offset + 1) rest
      pure (v :: vs)

/-- The whole bytes among `6 * n` bits; `none` when a bit left over is set. -/
def packSymbols : List Nat → Option Bytes
  | [a, b, c, d] =>
    let n := ((a * 64 + b) * 64 + c) * 64 + d
    some [UInt8.ofNat (n / 65536), UInt8.ofNat (n / 256 % 256), UInt8.ofNat (n % 256)]
  | [a, b, c] =>
    let n := (a * 64 + b) * 64 + c
    if n % 4 == 0 then some [UInt8.ofNat (n / 1024), UInt8.ofNat (n / 4 % 256)] else none
  | [a, b] => if b % 16 == 0 then some [UInt8.ofNat ((a * 64 + b) / 16)] else none
  | _ => none

/-- The last group: two to four symbols, filled up to four with padding. -/
def decodeLastGroup (offset : Nat) (group : Bytes) : Except Base64Error Bytes := do
  let symbols := group.takeWhile (· != padding)
  let marks := group.dropWhile (· != padding)
  if symbols.length < 2 && !marks.isEmpty then
    let _ ← symbolValues offset symbols
    throw (.invalidSymbol padding (offset + symbols.length))
  let values ← symbolValues offset symbols
  if marks.any (· != padding) then
    throw (.invalidSymbol padding (offset + symbols.length))
  if values.length < 2 then throw (.invalidLength (offset + values.length))
  if group.length % 4 != 0 then throw .invalidPadding
  match packSymbols values with
  | some bytes => pure bytes
  | none =>
    throw (.invalidLastSymbol (symbols.getLast?.getD 0) (offset + values.length - 1))

def decodeGroups : Nat → Bytes → Except Base64Error Bytes
  | offset, a :: b :: c :: d :: e :: rest => do
    let values ← symbolValues offset [a, b, c, d]
    let bytes ← decodeGroups (offset + 4) (e :: rest)
    pure ((packSymbols values).getD [] ++ bytes)
  | _, [] => .ok []
  | offset, group => decodeLastGroup offset group

/-- One byte too many is looked at first, when it is no symbol at all. -/
def decodeBase64 (s : String) : Except Base64Error Bytes :=
  let bytes := encodeUtf8 s
  match bytes.getLast? with
  | none => .ok []
  | some last =>
    if bytes.length % 4 == 1 && last != padding && (base64Value? last).isNone then
      .error (.invalidSymbol last (bytes.length - 1))
    else decodeGroups 0 bytes

end SealedColumns.Text

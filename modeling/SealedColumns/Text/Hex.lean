import SealedColumns.Text.Utf8

/-!
Bytes as pairs of hexadecimal digits, written in lower case and read in either.
-/
namespace SealedColumns.Text

inductive HexError where
  | oddLength
  | invalidCharacter (byte : UInt8) (position : Nat)
deriving DecidableEq, Repr

/-- A byte that is no digit is shown as the Latin-1 character of its value. -/
def HexError.message : HexError → String
  | .oddLength => "Odd number of digits"
  | .invalidCharacter byte position =>
    "Invalid character '" ++ String.singleton (Char.ofNat byte.toNat) ++
      s!"' at position {position}"

def hexDigit (n : Nat) : Char :=
  if n < 10 then Char.ofNat (48 + n) else Char.ofNat (87 + n)

def hexByte (b : UInt8) : List Char := [hexDigit (b.toNat / 16), hexDigit (b.toNat % 16)]

def encodeHex (bytes : Bytes) : String := String.ofList (bytes.flatMap hexByte)

def hexValue? (b : UInt8) : Option Nat :=
  let n := b.toNat
  if 48 ≤ n && n ≤ 57 then some (n - 48)
  else if 97 ≤ n && n ≤ 102 then some (n - 87)
  else if 65 ≤ n && n ≤ 70 then some (n - 55)
  else none

def hexPairs : Nat → Bytes → Except HexError Bytes
  | position, high :: low :: rest =>
    match hexValue? high, hexValue? low with
    | none, _ => .error (.invalidCharacter high position)
    | _, none => .error (.invalidCharacter low (position + 1))
    | some h, some l => do
      let bytes ← hexPairs (position + 2) rest
      pure (UInt8.ofNat (h * 16 + l) :: bytes)
  | _, _ => .ok []

/-- An odd number of bytes is reported before any character. -/
def decodeHex (s : String) : Except HexError Bytes :=
  let bytes := encodeUtf8 s
  if bytes.length % 2 == 1 then .error .oddLength else hexPairs 0 bytes

end SealedColumns.Text

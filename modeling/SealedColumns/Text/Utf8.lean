/-!
Texts as UTF-8 bytes. Reading stops at the first byte that no well-formed text can hold there, and
tells where it is and how many bytes belong to the broken character.
-/
namespace SealedColumns.Text

abbrev Bytes := List UInt8

inductive Utf8Error where
  | invalid (count index : Nat)
  | incomplete (index : Nat)
deriving DecidableEq, Repr

def Utf8Error.message : Utf8Error → String
  | .invalid count index => s!"invalid utf-8 sequence of {count} bytes from index {index}"
  | .incomplete index => s!"incomplete utf-8 byte sequence from index {index}"

def encodeUtf8 (s : String) : Bytes := s.toList.flatMap String.utf8EncodeChar

/-- The lowest and highest second byte after `lead`, and the number of bytes of its character. -/
def leadBounds (lead : Nat) : Option (Nat × Nat × Nat) :=
  if lead < 0x80 then some (0, 0, 1)
  else if 0xC2 ≤ lead && lead ≤ 0xDF then some (0x80, 0xBF, 2)
  else if lead == 0xE0 then some (0xA0, 0xBF, 3)
  else if lead == 0xED then some (0x80, 0x9F, 3)
  else if 0xE1 ≤ lead && lead ≤ 0xEF then some (0x80, 0xBF, 3)
  else if lead == 0xF0 then some (0x90, 0xBF, 4)
  else if 0xF1 ≤ lead && lead ≤ 0xF3 then some (0x80, 0xBF, 4)
  else if lead == 0xF4 then some (0x80, 0x8F, 4)
  else none

/-- Reads the `owed` remaining bytes of a character of which `taken` bytes gave `code`. -/
def decodeTail (index taken : Nat) : Nat → Nat → Nat → Nat → Bytes → Except Utf8Error (Nat × Bytes)
  | 0, code, _, _, rest => .ok (code, rest)
  | _ + 1, _, _, _, [] => .error (.incomplete index)
  | owed + 1, code, low, high, b :: rest =>
    if low ≤ b.toNat && b.toNat ≤ high then
      decodeTail index (taken + 1) owed (code * 64 + b.toNat % 64) 0x80 0xBF rest
    else .error (.invalid taken index)

def decodeChar (index : Nat) (lead : UInt8) (rest : Bytes) :
    Except Utf8Error (Char × Nat × Bytes) :=
  match leadBounds lead.toNat with
  | none => .error (.invalid 1 index)
  | some (low, high, width) => do
    let bits := if width == 1 then lead.toNat else lead.toNat % Nat.pow 2 (7 - width)
    let (code, rest) ← decodeTail index 1 (width - 1) bits low high rest
    pure (Char.ofNat code, width, rest)

def decodeUtf8Chars : Nat → Nat → Bytes → Except Utf8Error (List Char)
  | _, _, [] => .ok []
  | 0, index, _ :: _ => .error (.invalid 1 index)
  | fuel + 1, index, lead :: rest => do
    let (c, width, rest) ← decodeChar index lead rest
    let cs ← decodeUtf8Chars fuel (index + width) rest
    pure (c :: cs)

/-- Every character takes at least one byte, so the length bounds the number of steps. -/
def decodeUtf8 (bytes : Bytes) : Except Utf8Error String :=
  (decodeUtf8Chars bytes.length 0 bytes).map String.ofList

end SealedColumns.Text

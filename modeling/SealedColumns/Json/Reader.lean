import SealedColumns.Json.Value
import SealedColumns.Text.Ascii

/-!
Reading JSON texts. Containers may be nested 127 deep. A text is refused without a reason: nothing
depends on why.
-/
namespace SealedColumns.Json

abbrev Reads (α : Type) := List Char → Option (α × List Char)

def skipBlank (cs : List Char) : List Char :=
  cs.dropWhile fun c => c == ' ' || c == '\n' || c == '\t' || c == '\r'

def hexValue (c : Char) : Option Nat :=
  if c.isDigit then some (c.toNat - 48)
  else if 'a' ≤ c && c ≤ 'f' then some (c.toNat - 87)
  else if 'A' ≤ c && c ≤ 'F' then some (c.toNat - 55)
  else none

def readUnit : Reads Nat
  | a :: b :: c :: d :: rest => do
    let n := ((← hexValue a) * 16 + (← hexValue b)) * 16 + (← hexValue c)
    some (n * 16 + (← hexValue d), rest)
  | _ => none

def readEscapedUnit (cs : List Char) : Option (Char × List Char) := do
  let (unit, rest) ← readUnit cs
  if 0xDC00 ≤ unit && unit ≤ 0xDFFF then none
  else if 0xD800 ≤ unit && unit ≤ 0xDBFF then
    match rest with
    | '\\' :: 'u' :: rest =>
      let (low, rest) ← readUnit rest
      if 0xDC00 ≤ low && low ≤ 0xDFFF then
        some (Char.ofNat (0x10000 + (unit - 0xD800) * 1024 + (low - 0xDC00)), rest)
      else none
    | _ => none
  else some (Char.ofNat unit, rest)

def readEscape : List Char → Option (Char × List Char)
  | '"' :: rest => some ('"', rest)
  | '\\' :: rest => some ('\\', rest)
  | '/' :: rest => some ('/', rest)
  | 'b' :: rest => some (Char.ofNat 8, rest)
  | 'f' :: rest => some (Char.ofNat 12, rest)
  | 'n' :: rest => some ('\n', rest)
  | 'r' :: rest => some ('\r', rest)
  | 't' :: rest => some ('\t', rest)
  | 'u' :: rest => readEscapedUnit rest
  | _ => none

/-- The rest of a string behind its opening quote; `taken` holds its characters backwards. -/
def readStringTail : Nat → List Char → Reads String
  | 0, _, _ => none
  | _ + 1, _, [] => none
  | fuel + 1, taken, c :: rest =>
    if c == '"' then some (String.ofList taken.reverse, rest)
    else if c == '\\' then do
      let (c, rest) ← readEscape rest
      readStringTail fuel (c :: taken) rest
    else if c.toNat < 32 then none
    else readStringTail fuel (c :: taken) rest

def readString : Reads String
  | '"' :: rest => readStringTail (rest.length + 1) [] rest
  | _ => none

def readWord (word : String) (value : Json) (cs : List Char) : Option (Json × List Char) :=
  (Text.dropHead? word.toList cs).map fun rest => (value, rest)

def readScalar : Reads Json
  | 'n' :: rest => readWord "ull" .null rest
  | 't' :: rest => readWord "rue" (.boolean true) rest
  | 'f' :: rest => readWord "alse" (.boolean false) rest
  | '"' :: rest => do
    let (s, rest) ← readString ('"' :: rest)
    some (.string s, rest)
  | cs => do
    let (n, rest) ← Number.read cs
    some (.number n, rest)

def readMore {α : Type} (close : Char) (item : Reads α) : Nat → List α → Reads (List α)
  | 0, _, _ => none
  | fuel + 1, taken, cs =>
    match skipBlank cs with
    | ',' :: rest => do
      let (x, rest) ← item (skipBlank rest)
      readMore close item fuel (x :: taken) rest
    | c :: rest => if c == close then some (taken.reverse, rest) else none
    | [] => none

def readItems {α : Type} (close : Char) (item : Reads α) (cs : List Char) :
    Option (List α × List Char) :=
  match skipBlank cs with
  | [] => none
  | c :: rest =>
    if c == close then some ([], rest)
    else do
      let (x, rest) ← item (c :: rest)
      readMore close item (rest.length + 1) [x] rest

def readMember (value : Reads Json) (cs : List Char) : Option ((String × Json) × List Char) := do
  let (key, rest) ← readString cs
  match skipBlank rest with
  | ':' :: rest =>
    let (v, rest) ← value (skipBlank rest)
    some ((key, v), rest)
  | _ => none

/-- A value with containers nested at most `depth` deep. Members keep the order and the repetitions
of the text. -/
def readValue : Nat → Reads Json
  | 0, cs => readScalar cs
  | depth + 1, cs =>
    match cs with
    | '[' :: rest => do
      let (items, rest) ← readItems ']' (readValue depth) rest
      some (.array items, rest)
    | '\x7b' :: rest => do
      let (members, rest) ← readItems '\x7d' (readMember (readValue depth)) rest
      some (.object members, rest)
    | _ => readScalar cs

def depthLimit : Nat := 127

def readDocument? (s : String) : Option Json := do
  let (value, rest) ← readValue depthLimit (skipBlank s.toList)
  if (skipBlank rest).isEmpty then some value else none

mutual

/-- Rising keys in every object; of equal keys the last value is kept. -/
def canonical : Json → Json
  | .array items => .array (canonicalItems items)
  | .object members => .object (Members.ofList (canonicalMembers members))
  | value => value

def canonicalItems : List Json → List Json
  | [] => []
  | item :: rest => canonical item :: canonicalItems rest

def canonicalMembers : List (String × Json) → List (String × Json)
  | [] => []
  | (key, value) :: rest => (key, canonical value) :: canonicalMembers rest

end

def parse? (s : String) : Option Json := (readDocument? s).map canonical

end SealedColumns.Json

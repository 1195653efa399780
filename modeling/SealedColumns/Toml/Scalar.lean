import SealedColumns.Double
import SealedColumns.Json.Reader

/-!
The simple values of a TOML document: strings of four kinds, numbers, dates and times.
-/
namespace SealedColumns.Toml

open Json (Reads hexValue)
open Text

def isSpace (c : Char) : Bool := c == ' ' || c == '\t'

def skipSpace (cs : List Char) : List Char := cs.dropWhile isSpace

/-- A printing character or a tab; comments, literal strings and, but for quote and backslash,
basic strings are made of these. -/
def isPlain (c : Char) : Bool := c == '\t' || (32 ≤ c.toNat && c.toNat != 127)

def newline? : List Char → Option (List Char)
  | '\n' :: rest => some rest
  | '\r' :: '\n' :: rest => some rest
  | _ => none

def readHex : Nat → Nat → Reads Nat
  | 0, n, cs => some (n, cs)
  | _ + 1, _, [] => none
  | count + 1, n, c :: rest => do readHex count (n * 16 + (← hexValue c)) rest

def readScalarValue (count : Nat) (cs : List Char) : Option (Char × List Char) := do
  let (n, rest) ← readHex count 0 cs
  if n.isValidChar then some (Char.ofNat n, rest) else none

def readEscape : List Char → Option (Char × List Char)
  | 'b' :: rest => some (Char.ofNat 8, rest)
  | 't' :: rest => some ('\t', rest)
  | 'n' :: rest => some ('\n', rest)
  | 'f' :: rest => some (Char.ofNat 12, rest)
  | 'r' :: rest => some ('\r', rest)
  | '"' :: rest => some ('"', rest)
  | '\\' :: rest => some ('\\', rest)
  | 'u' :: rest => readScalarValue 4 rest
  | 'U' :: rest => readScalarValue 8 rest
  | _ => none

def readBasicTail : Nat → List Char → Reads String
  | 0, _, _ => none
  | _ + 1, _, [] => none
  | fuel + 1, taken, c :: rest =>
    if c == '"' then some (String.ofList taken.reverse, rest)
    else if c == '\\' then do
      let (c, rest) ← readEscape rest
      readBasicTail fuel (c :: taken) rest
    else if isPlain c then readBasicTail fuel (c :: taken) rest
    else none

def readLiteralTail (cs : List Char) : Option (String × List Char) :=
  let (inside, rest) := cs.span fun c => c != '\'' && isPlain c
  match rest with
  | '\'' :: rest => some (String.ofList inside, rest)
  | _ => none

def skipLines : Nat → List Char → List Char
  | 0, cs => cs
  | fuel + 1, cs =>
    let cs := skipSpace cs
    match newline? cs with
    | some rest => skipLines fuel rest
    | none => cs

def countQuotes (quote : Char) (cs : List Char) : Nat := (cs.takeWhile (· == quote)).length

/-- The rest of a string of several lines. A line end is one line feed however it is written; the
quotes that close may follow up to two that belong to the string. Only basic strings escape. -/
def readLongTail (quote : Char) (escapes : Bool) : Nat → List Char → Reads String
  | 0, _, _ => none
  | _ + 1, _, [] => none
  | fuel + 1, taken, c :: rest =>
    if c == quote then
      let count := countQuotes quote (c :: rest)
      if count < 3 then readLongTail quote escapes fuel (c :: taken) rest
      else if count ≤ 5 then
        some (String.ofList (List.replicate (count - 3) quote ++ taken).reverse,
          (c :: rest).drop count)
      else none
    else if c == '\\' && escapes then
      match newline? (skipSpace rest) with
      | some rest => readLongTail quote escapes fuel taken (skipLines (rest.length + 1) rest)
      | none => do
        let (c, rest) ← readEscape rest
        readLongTail quote escapes fuel (c :: taken) rest
    else
      match newline? (c :: rest) with
      | some rest => readLongTail quote escapes fuel ('\n' :: taken) rest
      | none => if isPlain c then readLongTail quote escapes fuel (c :: taken) rest else none

def readLong (quote : Char) (escapes : Bool) (cs : List Char) : Option (String × List Char) :=
  let cs := (newline? cs).getD cs
  readLongTail quote escapes (cs.length + 1) [] cs

def readLineString : Reads String
  | '"' :: rest => readBasicTail (rest.length + 1) [] rest
  | '\'' :: rest => readLiteralTail rest
  | _ => none

def readString : Reads String
  | '"' :: '"' :: '"' :: rest => readLong '"' true rest
  | '\'' :: '\'' :: '\'' :: rest => readLong '\'' false rest
  | cs => readLineString cs

/-- Digits behind a first one, with single underscores in front of some. -/
def moreDigits (isDigit : Char → Bool) : List Char → List Char × List Char
  | '_' :: c :: rest =>
    if isDigit c then
      let (ds, rest) := moreDigits isDigit rest
      (c :: ds, rest)
    else ([], '_' :: c :: rest)
  | c :: rest =>
    if isDigit c then
      let (ds, rest) := moreDigits isDigit rest
      (c :: ds, rest)
    else ([], c :: rest)
  | [] => ([], [])

def readDigits (isDigit : Char → Bool) : List Char → Option (List Char × List Char)
  | [] => none
  | c :: rest =>
    if isDigit c then
      let (ds, rest) := moreDigits isDigit rest
      some (c :: ds, rest)
    else none

def readSign : List Char → Bool × List Char
  | '-' :: rest => (true, rest)
  | '+' :: rest => (false, rest)
  | cs => (false, cs)

/-- Decimal digits without a superfluous zero in front. -/
def readWhole (cs : List Char) : Option (List Char × List Char) :=
  match cs with
  | '0' :: rest => some (['0'], rest)
  | _ => readDigits Char.isDigit cs

def infinity : Double := ⟨0x7FF0000000000000⟩

def notANumber : Double := ⟨0x7FF8000000000000⟩

def signed (negative : Bool) (x : Double) : Json :=
  .number (.double (if negative then x.negate else x))

def readSpecial (negative : Bool) : Reads Json
  | 'i' :: 'n' :: 'f' :: rest => some (signed negative infinity, rest)
  | 'n' :: 'a' :: 'n' :: rest => some (signed negative notANumber, rest)
  | _ => none

def readFraction : List Char → Option (List Char × List Char)
  | '.' :: rest => readDigits Char.isDigit rest
  | cs => some ([], cs)

def readExponent : List Char → Option (Option Int × List Char)
  | c :: rest =>
    if c == 'e' || c == 'E' then do
      let (negative, rest) := readSign rest
      let (ds, rest) ← readDigits Char.isDigit rest
      let n : Int := digitsValue ds
      some (some (if negative then -n else n), rest)
    else some (none, c :: rest)
  | [] => some (none, [])

/-- A number above the finite range is refused, one below it is infinite. -/
def float? (negative : Bool) (significand : Nat) (exponent : Int) : Option Json :=
  let magnitude := if exponent < -400000 then some Double.zero
    else Double.ofDecimal? significand exponent
  match magnitude with
  | some x => some (signed negative x)
  | none => if negative then some (signed true infinity) else none

def readFloat (cs : List Char) : Option (Json × List Char) := do
  let (negative, cs) := readSign cs
  match readSpecial negative cs with
  | some result => some result
  | none =>
    let (whole, cs) ← readWhole cs
    let (fraction, cs) ← readFraction cs
    let (exponent, cs) ← readExponent cs
    if fraction.isEmpty && exponent.isNone then none
    else
      let value ← float? negative (digitsValue (whole ++ fraction))
        (exponent.getD 0 - fraction.length)
      some (value, cs)

def ofBase (base : Nat) (ds : List Char) : Nat :=
  ds.foldl (fun n d => n * base + (hexValue d).getD 0) 0

/-- Integers are signed and have 64 bits. -/
def integer? (n : Int) : Option Json :=
  if -9223372036854775808 ≤ n && n ≤ 9223372036854775807 then some (.number (.integer n)) else none

def isDigitBelow (base : Nat) (c : Char) : Bool :=
  match hexValue c with
  | some n => n < base
  | none => false

def readBased (base : Nat) (cs : List Char) : Option (Json × List Char) := do
  let (ds, rest) ← readDigits (isDigitBelow base) cs
  some (← integer? (ofBase base ds), rest)

def readInteger : Reads Json
  | '0' :: 'x' :: rest => readBased 16 rest
  | '0' :: 'o' :: rest => readBased 8 rest
  | '0' :: 'b' :: rest => readBased 2 rest
  | cs => do
    let (negative, cs) := readSign cs
    let (ds, rest) ← readWhole cs
    let n : Int := digitsValue ds
    some (← integer? (if negative then -n else n), rest)

/-- Exactly `count` digits, whose value lies between two bounds. -/
def readField (count low high : Nat) (cs : List Char) : Option (Nat × List Char) :=
  let ds := cs.take count
  let n := digitsValue ds
  if ds.length == count && ds.all Char.isDigit && low ≤ n && n ≤ high then some (n, cs.drop count)
  else none

def readMark (mark : Char) : List Char → Option (List Char)
  | c :: rest => if c == mark then some rest else none
  | [] => none

def daysIn (year month : Nat) : Nat :=
  if month == 2 then
    if year % 4 == 0 && (year % 100 != 0 || year % 400 == 0) then 29 else 28
  else if month == 4 || month == 6 || month == 9 || month == 11 then 30
  else 31

def readDate (cs : List Char) : Option (List Char) := do
  let (year, cs) ← readField 4 0 9999 cs
  let (month, cs) ← readField 2 1 12 (← readMark '-' cs)
  let (_, cs) ← readField 2 1 (daysIn year month) (← readMark '-' cs)
  some cs

def readTime (cs : List Char) : Option (List Char) := do
  let (_, cs) ← readField 2 0 23 cs
  let (_, cs) ← readField 2 0 59 (← readMark ':' cs)
  let (_, cs) ← readField 2 0 60 (← readMark ':' cs)
  match cs with
  | '.' :: d :: rest => some (if d.isDigit then rest.dropWhile Char.isDigit else cs)
  | _ => some cs

/-- The offset from universal time, where there is one. -/
def readOffset : List Char → Option (List Char)
  | [] => some []
  | c :: rest =>
    if c == 'Z' || c == 'z' then some rest
    else if c == '+' || c == '-' then do
      let (_, rest) ← readField 2 0 23 rest
      let (_, rest) ← readField 2 0 59 (← readMark ':' rest)
      some rest
    else some (c :: rest)

/-- A date, a time, or both; its value is an object of no known members. -/
def readMoment (cs : List Char) : Option (Json × List Char) := do
  let rest ← match readDate cs with
    | none => readTime cs
    | some rest =>
      match rest with
      | mark :: more =>
        if mark == 'T' || mark == 't' || mark == ' ' then
          match readTime more with
          | some rest => readOffset rest
          | none => some rest
        else some rest
      | [] => some []
  some (.object [], rest)

def readNumber (cs : List Char) : Option (Json × List Char) :=
  readMoment cs <|> readFloat cs <|> readInteger cs

end SealedColumns.Toml

import SealedColumns.Sql.Token
import SealedColumns.Text.Blank

/-!
From text to tokens. The dialect decides which characters make identifiers, which quotes open
them, and what backslashes, hashes, question marks and comments mean. A text is refused only for a
quote or a block comment that is never closed, and for a name that cannot follow its dot.
-/
namespace SealedColumns.Sql

open SealedColumns.Text

inductive Step where
  | blank (rest : List Char)
  | token (token : Token) (rest : List Char)

namespace Lexer

def symbol (text : String) (rest : List Char) : Option Step := some (.token (.symbol text) rest)

def isNumberChar (c : Char) : Bool := c.isDigit || c == '.'

/-- An identifier or keyword that starts with `first`; one of digits and points is a number. -/
def word (d : Dialect) (first rest : List Char) : Option Step :=
  let text := first ++ rest.takeWhile d.continuesIdentifier
  let rest := rest.dropWhile d.continuesIdentifier
  if text.all isNumberChar then
    let whole := text ++ rest.takeWhile isNumberChar
    some (.token (.number (String.ofList whole) false) (rest.dropWhile isNumberChar))
  else some (.token (.word (String.ofList text) none) rest)

def string (d : Dialect) (quote : Char) (rest : List Char) (make : List Char → Token) :
    Option Step :=
  (lexString ⟨quote, d.hasBackslashEscapes, d.keepsWildcardEscapes⟩ rest).map
    fun (cs, rest) => .token (make cs) rest

def plainString (quote : Char) (rest : List Char) (make : List Char → Token) : Option Step :=
  (lexString ⟨quote, false, false⟩ rest).map fun (cs, rest) => .token (make cs) rest

def enclosed (opening : String) (quote : Char) (cs : List Char) : Token :=
  .verbatim (opening ++ String.ofList (quote :: cs ++ [quote]))

def escapeBody (c : Char) : List Char :=
  match c with
  | '\'' => ['\\', '\'']
  | '\\' => ['\\', '\\']
  | '\n' => ['\\', 'n']
  | '\r' => ['\\', 'r']
  | '\t' => ['\\', 't']
  | c => [c]

/-- The sign of an exponent, and what is behind it. -/
def signOf : List Char → List Char × List Char
  | '+' :: digits => (['+'], digits)
  | '-' :: digits => (['-'], digits)
  | digits => ([], digits)

def exponent : List Char → List Char × List Char
  | [] => ([], [])
  | mark :: tail =>
    let signed := signOf tail
    if (mark == 'e' || mark == 'E') && signed.2.head?.any Char.isDigit then
      (mark :: signed.1 ++ signed.2.takeWhile Char.isDigit, signed.2.dropWhile Char.isDigit)
    else ([], mark :: tail)

def isHexDigit (c : Char) : Bool :=
  c.isDigit || ('a' ≤ c && c ≤ 'f') || ('A' ≤ c && c ≤ 'F')

/-- Digits, with a point and the digits behind it or without. -/
def decimal (cs : List Char) : List Char × List Char :=
  match cs.dropWhile Char.isDigit with
  | '.' :: rest =>
    (cs.takeWhile Char.isDigit ++ '.' :: rest.takeWhile Char.isDigit, rest.dropWhile Char.isDigit)
  | rest => (cs.takeWhile Char.isDigit, rest)

def isAfterWord : Option Token → Bool
  | some (.word _ _) => true
  | _ => false

/-- The letters of a name that starts with digits. -/
def lettersBehind (d : Dialect) (power : List Char × List Char) : List Char :=
  if d.allowsNumericStart && power.1.isEmpty then power.2.takeWhile d.continuesIdentifier else []

/-- What goes on behind the digits: an exponent, the letters of a name, or the `L` of a long
number. -/
def numberEnd (d : Dialect) (previous : Option Token) (digits rest : List Char) : Step :=
  let power := exponent rest
  let letters := lettersBehind d power
  if !letters.isEmpty then
    .token (.word (String.ofList (digits ++ letters)) none)
      (power.2.dropWhile d.continuesIdentifier)
  else if d.allowsNumericStart && !power.1.isEmpty && previous == some (.symbol ".") then
    .token (.word (String.ofList (digits ++ power.1)) none) power.2
  else
    match power.2 with
    | 'L' :: rest => .token (.number (String.ofList (digits ++ power.1)) true) rest
    | rest => .token (.number (String.ofList (digits ++ power.1)) false) rest

/-- A number keeps its text. A lone point is a period. -/
def number (d : Dialect) (previous : Option Token) (cs : List Char) : Option Step :=
  match cs with
  | '.' :: '_' :: rest => if isAfterWord previous then symbol "." ('_' :: rest) else none
  | '0' :: 'x' :: rest =>
    some (.token (.verbatim ("X'" ++ String.ofList (rest.takeWhile isHexDigit) ++ "'"))
      (rest.dropWhile isHexDigit))
  | _ =>
    if cs.head? == some '.' && d.allowsNumericStart && isAfterWord previous then
      symbol "." (cs.drop 1)
    else
      let decimal := decimal cs
      if decimal.1 == ['.'] then symbol "." decimal.2
      else some (numberEnd d previous decimal.1 decimal.2)

def dollarBody (close : List Char) : List Char → Option (List Char × List Char)
  | [] => if close.isEmpty then some ([], []) else none
  | c :: rest =>
    match dropHead? close (c :: rest) with
    | some rest => some ([], rest)
    | none => (dollarBody close rest).map fun (cs, rest) => (c :: cs, rest)

/-- A dollar starts a quoted string or a placeholder. -/
def dollar (d : Dialect) (rest : List Char) : Option Step :=
  let isPart := fun c => isAlphabetic c || isNumeric c || c == '_' || (c == '$' && d.hasDollarNames)
  let tag := rest.takeWhile isPart
  match rest.dropWhile isPart with
  | '$' :: body =>
    let mark := '$' :: tag ++ ['$']
    (dollarBody mark body).map fun (cs, rest) =>
      .token (.verbatim (String.ofList (mark ++ cs ++ mark))) rest
  | rest => some (.token (.placeholder (String.ofList ('$' :: tag))) rest)

def isQuote (c : Char) : Bool := c == '\'' || c == '"' || c == '`'

def atSign (d : Dialect) (rest : List Char) : Option Step :=
  match rest with
  | '>' :: rest => symbol "@>" rest
  | '?' :: rest => symbol "@?" rest
  | '@' :: ' ' :: rest => symbol "@@" (' ' :: rest)
  | '@' :: c :: rest =>
    if d.startsIdentifier '@' then word d ['@', '@', c] rest else symbol "@@" (c :: rest)
  | '@' :: [] => symbol "@@" []
  | c :: rest =>
    if c == ' ' || isQuote c || !d.startsIdentifier '@' then symbol "@" (c :: rest)
    else word d ['@', c] rest
  | [] => symbol "@" []

def hash (d : Dialect) (rest : List Char) : Option Step :=
  match rest with
  | '-' :: rest => symbol "#-" rest
  | '>' :: '>' :: rest => symbol "#>>" rest
  | '>' :: rest => symbol "#>" rest
  | ' ' :: rest => symbol "#" (' ' :: rest)
  | c :: rest => if d.startsIdentifier '#' then word d ['#', c] rest else symbol "#" (c :: rest)
  | [] => symbol "#" []

/-- The longest operator among those that start with the first character. -/
def operators : List String :=
  ["->>", "->", "||", "=>", "==", "!=", "!~~*", "!~~", "!~*", "!~", "!!", "<=>", "<=", "<>", "<<",
    "<@", ">=", ">>", "::", ":=", "&&", "^@", "~~*", "~~", "~*", "(", ")", ",", "-", "/", "+", "*",
    "%", "|", "=", "!", "<", ">", ":", ";", "\\", "[", "]", "&", "^", "\x7b", "\x7d", "~"]

def operator? (cs : List Char) : Option (String × List Char) :=
  operators.findSome? fun text => (dropHead? text.toList cs).map fun rest => (text, rest)

def question (d : Dialect) (rest : List Char) : Option Step :=
  if d.hasQuestionOperator then symbol "?" rest
  else
    some (.token (.placeholder (String.ofList ('?' :: rest.takeWhile isNumeric)))
      (rest.dropWhile isNumeric))

def dashes (d : Dialect) (rest : List Char) : Option Step :=
  if d.needsBlankAfterDashes && !(rest.head?.any isBlank) then symbol "-" ('-' :: rest)
  else some (.blank (skipLine rest))

def introduced (d : Dialect) (c quote : Char) (rest : List Char) : Option Step :=
  match c.toUpper, quote with
  | 'N', '\'' => string d quote rest (enclosed "N" quote)
  | 'X', '\'' => plainString quote rest (enclosed "X" quote)
  | 'E', '\'' =>
    if d.hasEscapeStrings then
      (lexString ⟨quote, true, false⟩ rest).map fun (cs, rest) =>
        .token (enclosed "E" quote (cs.flatMap escapeBody)) rest
    else none
  | 'B', _ => if d.hasByteStrings then plainString quote rest (enclosed "B" quote) else none
  | 'R', _ => if d.hasRawStrings then plainString quote rest (enclosed "R" quote) else none
  | _, _ => none

def introduces (d : Dialect) (c quote : Char) : Bool :=
  match c.toUpper, quote with
  | 'N', '\'' | 'X', '\'' => true
  | 'E', '\'' => d.hasEscapeStrings
  | 'B', '\'' | 'B', '"' => d.hasByteStrings
  | 'R', '\'' | 'R', '"' => d.hasRawStrings
  | _, _ => false

def other (d : Dialect) (c : Char) (rest : List Char) : Option Step :=
  if d.startsIdentifier c then word d [c] rest
  else if c == '$' then dollar d rest
  else if isBlank c then some (.blank rest)
  else symbol (String.singleton c) rest

def quoted (d : Dialect) (c : Char) (rest : List Char) : Option Step :=
  match d.closingQuote? c with
  | some close =>
    (lexQuotedIdent close rest).map fun (cs, rest) =>
      .token (.word (String.ofList cs) (some c)) rest
  | none =>
    if c == '"' then string d c rest fun cs => .doubleQuoted (String.ofList cs)
    else
      match operator? (c :: rest) with
      | some (text, rest) => symbol text rest
      | none => other d c rest

def step (d : Dialect) (previous : Option Token) (c : Char) (rest : List Char) : Option Step :=
  if c == ' ' || c == '\t' || c == '\n' || c == '\r' then some (.blank rest)
  else if (rest.head?.any (introduces d c)) then
    introduced d c (rest.head?.getD c) (rest.drop 1)
  else if c == '\'' then string d c rest fun cs => .string (String.ofList cs)
  else if c.isDigit || c == '.' then number d previous (c :: rest)
  else
    match c, rest with
    | '-', '-' :: rest => dashes d rest
    | '/', '*' :: rest => (skipComment d.nestsComments 0 rest).map .blank
    | '/', '/' :: tail =>
      if d.hasSlashComments then some (.blank (skipLine tail))
      else symbol "/" rest
    | '#', _ => if d.hasHashComments then some (.blank (skipLine rest)) else hash d rest
    | '@', _ => atSign d rest
    | '?', _ => question d rest
    | _, _ => quoted d c rest

/-- Every step takes a character at least, so the length of the text is fuel enough. -/
def run (d : Dialect) : Nat → Option Token → Bool → List Char → Option (List Lexeme)
  | _, _, _, [] => some []
  | 0, _, _, _ :: _ => none
  | fuel + 1, previous, spaced, c :: rest =>
    match step d previous c rest with
    | none => none
    | some (.blank rest) => run d fuel none true rest
    | some (.token token rest) =>
      (run d fuel (some token) false rest).map (⟨token, spaced⟩ :: ·)

end Lexer

def tokenize? (d : Dialect) (sql : String) : Option (List Lexeme) :=
  Lexer.run d sql.length none false sql.toList

end SealedColumns.Sql

import SealedColumns.Sql.Dialect

/-!
Tokens of a statement. White space and comments are dropped; whether there was any before a token
is kept, because a colon and the name behind it make a placeholder only without it.
-/
namespace SealedColumns.Sql

open SealedColumns.Text

inductive Token where
  | word (text : String) (quote : Option Char)
  | number (text : String) (long : Bool)
  | string (text : String)
  | doubleQuoted (text : String)
  | verbatim (text : String)
  | placeholder (text : String)
  | symbol (text : String)
deriving DecidableEq, Repr

structure Lexeme where
  token : Token
  spaced : Bool
deriving DecidableEq, Repr

namespace Token

def keyword? : Token → Option String
  | .word text none => some (keywordText text)
  | _ => none

def isKeyword (token : Token) (keyword : String) : Bool := token.keyword? == some keyword

end Token

/-- The rest of a quoted identifier; a doubled closing quote stands for one. -/
def lexQuotedIdent (close : Char) : List Char → Option (List Char × List Char)
  | [] => none
  | [c] => if c == close then some ([], []) else none
  | c :: d :: rest =>
    if c == close then
      if d == close then (lexQuotedIdent close rest).map fun (cs, rest) => (c :: cs, rest)
      else some ([], d :: rest)
    else (lexQuotedIdent close (d :: rest)).map fun (cs, rest) => (c :: cs, rest)

def unescapeChar (c : Char) : Char :=
  match c with
  | '0' => Char.ofNat 0
  | 'a' => Char.ofNat 7
  | 'b' => Char.ofNat 8
  | 'f' => Char.ofNat 12
  | 'n' => '\n'
  | 'r' => '\r'
  | 't' => '\t'
  | 'Z' => Char.ofNat 26
  | c => c

structure StringRules where
  quote : Char
  backslash : Bool
  keepWildcards : Bool

/-- The rest of a string literal. A doubled quote stands for one; a backslash is an ordinary
character unless the rules give it a meaning. -/
def lexString (rules : StringRules) : List Char → Option (List Char × List Char)
  | [] => none
  | [c] => if c == rules.quote then some ([], []) else none
  | c :: d :: rest =>
    if c == rules.quote then
      if d == rules.quote then (lexString rules rest).map fun (cs, rest) => (c :: cs, rest)
      else some ([], d :: rest)
    else if c == '\\' && rules.backslash then
      let kept := rules.keepWildcards && (d == '%' || d == '_')
      (lexString rules rest).map fun (cs, rest) =>
        (if kept then c :: d :: cs else unescapeChar d :: cs, rest)
    else (lexString rules (d :: rest)).map fun (cs, rest) => (c :: cs, rest)

/-- What follows a block comment of which `level + 1` levels are still open. -/
def skipComment (nests : Bool) : Nat → List Char → Option (List Char)
  | _, [] => none
  | _, [_] => none
  | level, c :: d :: rest =>
    if c == '*' && d == '/' then
      match level with
      | 0 => some rest
      | level + 1 => skipComment nests level rest
    else if nests && c == '/' && d == '*' then skipComment nests (level + 1) rest
    else skipComment nests level (d :: rest)

def skipLine (cs : List Char) : List Char := (cs.dropWhile (· != '\n')).drop 1

end SealedColumns.Sql

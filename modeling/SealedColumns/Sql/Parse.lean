import SealedColumns.Sql.Syntax
import SealedColumns.Sql.Token

/-!
Parsing steps over tokens. A failure has no text: it only tells a wrong token, which an alternative
may still repair, from nesting that is too deep, which nothing repairs.
-/
namespace SealedColumns.Sql

inductive Failure where
  | unexpected
  | tooDeep
deriving DecidableEq, Repr

abbrev Parse (α : Type) := StateT (List Lexeme) (Except Failure) α

namespace Parse

variable {α β : Type}

def fail : Parse α := throw .unexpected

def peekLexeme (ahead : Nat) : Parse (Option Lexeme) := do return (← get)[ahead]?

def peek (ahead : Nat) : Parse (Option Token) := do
  return (← peekLexeme ahead).map Lexeme.token

def skip (count : Nat) : Parse Unit := modify (List.drop count)

def next : Parse Token := do
  match ← get with
  | [] => fail
  | lexeme :: rest =>
    set rest
    return lexeme.token

/-- The result of a parser, or nothing and no token taken. -/
def attempt (p : Parse α) : Parse (Option α) := fun tokens =>
  match p tokens with
  | .ok (a, rest) => .ok (some a, rest)
  | .error .unexpected => .ok (none, tokens)
  | .error .tooDeep => .error .tooDeep

def orElse (p q : Parse α) : Parse α := do
  match ← attempt p with
  | some a => return a
  | none => q

def isAt (ahead : Nat) (text : String) : Parse Bool := do
  return (← peek ahead) == some (.symbol text)

def isWordAt (ahead : Nat) (keyword : String) : Parse Bool := do
  return (← peek ahead).any (Token.isKeyword · keyword)

def isOneOfAt (ahead : Nat) (keywords : List String) : Parse Bool := do
  return (← peek ahead).any fun token => token.keyword?.any keywords.contains

def eat (text : String) : Parse Bool := do
  let found ← isAt 0 text
  if found then skip 1
  return found

def eatIf (allowed : Bool) (text : String) : Parse Bool :=
  if allowed then eat text else pure false

def expect (text : String) : Parse Unit := do
  if !(← eat text) then fail

def eatWord (keyword : String) : Parse Bool := do
  let found ← isWordAt 0 keyword
  if found then skip 1
  return found

def eatWordIf (allowed : Bool) (keyword : String) : Parse Bool :=
  if allowed then eatWord keyword else pure false

def expectWord (keyword : String) : Parse Unit := do
  if !(← eatWord keyword) then fail

def wordsAt : Nat → List String → Parse Bool
  | _, [] => pure true
  | ahead, keyword :: rest => do
    if ← isWordAt ahead keyword then wordsAt (ahead + 1) rest else return false

def eatWords (keywords : List String) : Parse Bool := do
  let found ← wordsAt 0 keywords
  if found then skip keywords.length
  return found

/-- The value of the first keyword sequence that is next. -/
def eatChoice : List (List String × α) → Parse (Option α)
  | [] => pure none
  | (keywords, a) :: rest => do
    if ← eatWords keywords then return some a else eatChoice rest

def eatOneOf (keywords : List String) : Parse (Option String) := do
  match (← peek 0).bind Token.keyword? with
  | none => return none
  | some keyword =>
    if keywords.contains keyword then
      skip 1
      return some keyword
    else return none

def moreAfterComma (item : Parse α) : Nat → Parse (List α)
  | 0 => pure []
  | fuel + 1 => do
    if ← eat "," then
      let x ← item
      let xs ← moreAfterComma item fuel
      return x :: xs
    else return []

def commaList (item : Parse α) : Parse (List α) := do
  let x ← item
  let xs ← moreAfterComma item (← get).length
  return x :: xs

def parenthesized (p : Parse α) : Parse α := do
  expect "("
  let a ← p
  expect ")"
  return a

/-- Repeats a step as long as it gives something, at most as often as there are tokens. -/
def repeatUpTo (step : Parse (Option α)) : Nat → Parse (List α)
  | 0 => pure []
  | fuel + 1 => do
    match ← step with
    | none => return []
    | some x => return x :: (← repeatUpTo step fuel)

def repeated (step : Parse (Option α)) : Parse (List α) := do
  repeatUpTo step (← get).length

/-- Goes on with a step as long as it gives something. Every step takes a token at least, so the
number of tokens is fuel enough. -/
def iterate (step : β → Parse (Option β)) : Nat → β → Parse β
  | 0, b => do
    if (← step b).isSome then fail else return b
  | fuel + 1, b => do
    match ← step b with
    | none => return b
    | some b => iterate step fuel b

end Parse

open Parse

/-- Any bare or quoted word is an identifier where a name has to stand, and so is a string. -/
def parseIdent : Parse Ident := do
  match ← next with
  | .word text quote => return ⟨text, quote⟩
  | .string text => return ⟨text, some '\''⟩
  | .doubleQuoted text => return ⟨text, some '"'⟩
  | _ => fail

def parseNamePart : Parse (Option Ident) := do
  if ← eat "." then return some (← parseIdent) else return none

def parseName : Parse Name := do
  let first ← parseIdent
  return first :: (← repeated parseNamePart)

def parseColumnList : Parse (List Ident) := parenthesized (commaList parseIdent)

/-- The parsers of what may stand one level deeper. Each of them fails as too deep once no level is
left. -/
structure Nested where
  dialect : Dialect
  depth : Nat
  expr : Nat → Parse Expr
  query : Parse Query
  statement : Parse Statement

/-- Text pieces and operand places built from left to right. -/
structure FrameBuilder where
  frame : List Piece
  operands : List Expr

namespace FrameBuilder

def ofText (text : String) : FrameBuilder := ⟨[.text text], []⟩

def text (b : FrameBuilder) (text : String) : FrameBuilder :=
  ⟨b.frame ++ [.text text], b.operands⟩

def operand (b : FrameBuilder) (e : Expr) : FrameBuilder :=
  ⟨b.frame ++ [.operand b.operands.length], b.operands ++ [e]⟩

def operandsBetween (separator : String) (b : FrameBuilder) : List Expr → FrameBuilder
  | [] => b
  | [e] => b.operand e
  | e :: rest => ((b.operand e).text separator).operandsBetween separator rest

def commaOperands (b : FrameBuilder) (es : List Expr) : FrameBuilder := b.operandsBetween ", " es

def expr (b : FrameBuilder) : Expr := .framed b.frame b.operands

end FrameBuilder

end SealedColumns.Sql

import SealedColumns.Sql.Parse

/-!
The operators of expressions, and how tightly they bind in each dialect.
-/
namespace SealedColumns.Sql

open Parse

/-- How tightly the operators bind, loosest first. -/
structure Precedence where
  or : Nat
  and : Nat
  not : Nat
  is : Nat
  like : Nat
  equal : Nat
  between : Nat
  pipe : Nat
  caret : Nat
  ampersand : Nat
  xor : Nat
  sum : Nat
  product : Nat
  concat : Nat
  other : Nat
  zone : Nat
  cast : Nat

def precedence (d : Dialect) : Precedence :=
  if d == .postgres then
    ⟨10, 20, 30, 40, 60, 50, 60, 70, 100, 70, 75, 80, 90, 70, 70, 110, 140⟩
  else ⟨5, 10, 15, 17, 19, 20, 20, 21, 22, 23, 24, 30, 40, 40, 16, 41, 50⟩

def regularOperators (p : Precedence) : List (String × Nat × BinaryOp) :=
  [("=", p.equal, .equal), ("==", p.equal, .equal), ("!=", p.equal, .notEqual),
    ("<>", p.equal, .notEqual), ("<", p.equal, .less), ("<=", p.equal, .lessEqual),
    (">", p.equal, .greater), (">=", p.equal, .greaterEqual), ("<=>", p.equal, .other "<=>"),
    (":=", p.equal, .other ":="), ("~", p.equal, .other "~"), ("~*", p.equal, .other "~*"),
    ("!~", p.equal, .other "!~"), ("!~*", p.equal, .other "!~*"), ("~~", p.equal, .other "~~"),
    ("~~*", p.equal, .other "~~*"), ("!~~", p.equal, .other "!~~"),
    ("!~~*", p.equal, .other "!~~*"), ("|", p.pipe, .other "|"), ("^", p.caret, .other "^"),
    ("<<", p.caret, .other "<<"), (">>", p.caret, .other ">>"), ("#", p.caret, .other "#"),
    ("&", p.ampersand, .other "&"), ("+", p.sum, .plus), ("-", p.sum, .minus),
    ("*", p.product, .times), ("/", p.product, .divide), ("%", p.product, .modulo),
    ("||", p.concat, .concat), ("&&", p.cast, .other "&&"), ("->", p.other, .other "->"),
    ("->>", p.other, .other "->>"), ("#>", p.other, .other "#>"), ("#>>", p.other, .other "#>>"),
    ("@>", p.other, .other "@>"), ("<@", p.other, .other "<@"), ("#-", p.other, .other "#-"),
    ("@?", p.other, .other "@?"), ("@@", p.other, .other "@@"), ("?", p.other, .other "?")]

def wordOperators (p : Precedence) : List (String × Nat × BinaryOp) :=
  [("OR", p.or, .or), ("AND", p.and, .and), ("XOR", p.xor, .xor),
    ("OVERLAPS", p.between, .other "OVERLAPS")]

def patternWords : List String := ["LIKE", "ILIKE", "SIMILAR", "RLIKE", "REGEXP"]

/-- What follows an operand: a binary operator, one of the word forms, a cast, or the end. -/
inductive Infix where
  | binary (op : BinaryOp)
  | is
  | list
  | zone
  | cast

def peekInfix (p : Precedence) : Parse (Option (Nat × Infix)) := do
  match ← peek 0 with
  | some (.symbol text) =>
    if text == "::" then return some (p.cast, .cast)
    else return ((regularOperators p).lookup text).map fun (level, op) => (level, .binary op)
  | some token =>
    match token.keyword? with
    | none => return none
    | some keyword =>
      match (wordOperators p).lookup keyword with
      | some (level, op) => return some (level, .binary op)
      | none =>
        if keyword == "IS" then return some (p.is, .is)
        else if keyword == "IN" || keyword == "BETWEEN" then return some (p.between, .list)
        else if patternWords.contains keyword then return some (p.like, .list)
        else if keyword == "NOT" then
          if ← isOneOfAt 1 ["IN", "BETWEEN"] then return some (p.between, .list)
          else if ← isOneOfAt 1 patternWords then return some (p.like, .list)
          else if ← isWordAt 1 "NULL" then return some (p.is, .list)
          else return none
        else if keyword == "AT" && (← wordsAt 1 ["TIME", "ZONE"]) then return some (p.zone, .zone)
        else return none
  | none => return none

end SealedColumns.Sql

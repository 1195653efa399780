import SealedColumns.Sql.Parse.Call

/-!
Expressions by operator precedence. Forms that sealing never enters become frames.
-/
namespace SealedColumns.Sql

open Parse SealedColumns.Text

def peekSubquery (ahead : Nat) : Parse Bool := isOneOfAt ahead ["SELECT", "WITH"]

section

variable (g : Nested)

def parseCaseBranch : Parse (Expr × Expr) := do
  let condition ← parseExpr g
  expectWord "THEN"
  return (condition, ← parseExpr g)

def moreCaseBranches : Parse (Option (Expr × Expr)) := do
  if ← eatWord "WHEN" then return some (← parseCaseBranch g) else return none

def parseCase : Parse Expr := do
  let start := FrameBuilder.ofText "CASE"
  let start ← if ← eatWord "WHEN" then pure start
    else
      let subject ← parseExpr g
      expectWord "WHEN"
      pure ((start.text " ").operand subject)
  let first ← parseCaseBranch g
  let branches := first :: (← repeated (moreCaseBranches g))
  let body := branches.foldl (fun (b : FrameBuilder) (condition, result) =>
    (((b.text " WHEN ").operand condition).text " THEN ").operand result) start
  let body ← if ← eatWord "ELSE" then pure ((body.text " ELSE ").operand (← parseExpr g))
    else pure body
  expectWord "END"
  return (body.text " END").expr

def parseCast (keyword : String) : Parse Expr := do
  expect "("
  let e ← parseExpr g
  expectWord "AS"
  let type ← parseType
  expect ")"
  return (((FrameBuilder.ofText (keyword ++ "(")).operand e).text (" AS " ++ type.text ++ ")")).expr

def parseExistence (negated : Bool) : Parse Expr := do
  return .existence negated (← parenthesized g.query)

def parseExtract : Parse Expr := do
  expect "("
  let field ← match (← peek 0).bind Token.keyword? with
    | some keyword => do
      skip 1
      pure keyword
    | none => fail
  if !(← eatWord "FROM") then expect ","
  let e ← parseExpr g
  expect ")"
  return (((FrameBuilder.ofText ("EXTRACT(" ++ field ++ " FROM ")).operand e).text ")").expr

def parseRounding (keyword : String) : Parse Expr := do
  expect "("
  let e ← parseExpr g
  let b := (FrameBuilder.ofText (keyword ++ "(")).operand e
  let b ← if ← eat "," then pure ((b.text ", ").operand (.value (← parseValue g.dialect)))
    else pure b
  expect ")"
  return (b.text ")").expr

def parsePosition : Parse Expr := do
  expect "("
  let e ← g.expr (precedence g.dialect).between
  expectWord "IN"
  let within ← parseExpr g
  expect ")"
  let b := ((FrameBuilder.ofText "POSITION(").operand e).text " IN "
  return ((b.operand within).text ")").expr

def parseSubstring (keyword : String) : Parse Expr := do
  expect "("
  let e ← parseExpr g
  let b := (FrameBuilder.ofText (keyword ++ "(")).operand e
  let commas ← eat ","
  let hasStart ← if commas then pure true else eatWord "FROM"
  let b ← if hasStart then
      pure ((b.text (if commas then ", " else " FROM ")).operand (← parseExpr g))
    else pure b
  let hasLength ← if ← eatWord "FOR" then pure true else eat ","
  let b ← if hasLength then
      pure ((b.text (if commas then ", " else " FOR ")).operand (← parseExpr g))
    else pure b
  expect ")"
  return (b.text ")").expr

/-- The trimmed expression is visited before the characters written in front of it. -/
def parseTrim : Parse Expr := do
  expect "("
  let side ← eatOneOf ["BOTH", "LEADING", "TRAILING"]
  let start := "TRIM(" ++ (side.elim "" (· ++ " "))
  let e ← parseExpr g
  if ← eatWord "FROM" then
    let subject ← parseExpr g
    expect ")"
    return .framed [.text start, .operand 1, .text " FROM ", .operand 0, .text ")"] [subject, e]
  else
    let b := (FrameBuilder.ofText start).operand e
    let commas ← eatIf ([.generic, .snowflake, .bigquery, .duckdb].contains g.dialect) ","
    let b ← if commas then pure ((b.text ", ").commaOperands (← commaList (parseExpr g)))
      else pure b
    expect ")"
    return (b.text ")").expr

def parseNot : Parse Expr := do
  if ← eatWord "EXISTS" then parseExistence g true
  else return .unary .not (← g.expr (precedence g.dialect).not)

/-- A date, time or user function: a call when parentheses follow, else the bare word. -/
def parseNiladic (text : String) : Parse Expr := do
  if ← isAt 0 "(" then parseCall g [Ident.bare text] else return .words text

def parseArrayItems (opening : String) : Parse Expr := do
  if ← eat "]" then return .words (opening ++ "[]")
  let es ← commaList (parseExpr g)
  expect "]"
  return (((FrameBuilder.ofText (opening ++ "[")).commaOperands es).text "]").expr

/-- An array of items or of the rows of a query; any other word ARRAY is a name. -/
def parseArray : Parse (Option Expr) := do
  if ← eat "[" then return some (← parseArrayItems g "ARRAY")
  else if ← eat "(" then
    let query ← g.query
    expect ")"
    return some (clauseOf "ARRAY" (.subquery query))
  else return none

def timeWords : List String :=
  ["CURRENT_TIMESTAMP", "CURRENT_TIME", "CURRENT_DATE", "LOCALTIME", "LOCALTIMESTAMP"]

def userWords : List String := ["CURRENT_CATALOG", "CURRENT_USER", "SESSION_USER", "USER"]

/-- The special form that a word introduces, if it does; the word itself is taken already. -/
def parseSpecial (text keyword : String) (operand : Parse Expr) : Parse (Option Expr) := do
  match keyword with
  | "TRUE" => return some (.value (.boolean true))
  | "FALSE" => return some (.value (.boolean false))
  | "NULL" => return some (.value .null)
  | "CASE" => return some (← parseCase g)
  | "ARRAY" => parseArray g
  | "CAST" | "TRY_CAST" | "SAFE_CAST" => return some (← parseCast g keyword)
  | "EXISTS" => return some (← parseExistence g false)
  | "EXTRACT" => return some (← parseExtract g)
  | "CEIL" | "FLOOR" => return some (← parseRounding g keyword)
  | "SUBSTR" | "SUBSTRING" => return some (← parseSubstring g keyword)
  | "TRIM" => return some (← parseTrim g)
  | "INTERVAL" => return some (← parseInterval operand)
  | "NOT" => return some (← parseNot g)
  | "POSITION" =>
    if ← isAt 0 "(" then
      return some (← orElse (parsePosition g) (parseCall g [Ident.bare text]))
    else return none
  | _ =>
    if timeWords.contains keyword then return some (← parseNiladic g text)
    else if g.dialect.hasUserWords && userWords.contains keyword then return some (.words text)
    else return none

/-- Words that are never read as a name where an expression starts. -/
def reservedWords : List String := ["EXISTS", "INTERVAL", "STRUCT", "TRIM"]

def parsePlainWord (ident : Ident) : Parse Expr := do
  if ← isAt 0 "(" then parseCall g [ident] else return .column [] ident

/-- A literal with its type in front. Its value is no operand. -/
def parseTyped : Parse Expr := do
  match ← parseType with
  | .listed text =>
    let value ← parseValue g.dialect
    return .words (text ++ " " ++ value.render)
  | .interval => fail
  | .custom _ => fail

def parseWordOperand (operand : Parse Expr) : Parse Expr := do
  match ← attempt (parseTyped g) with
  | some e => return e
  | none =>
    match ← next with
    | .word text quote =>
      let ident : Ident := ⟨text, quote⟩
      let keyword := if quote.isNone then keywordText text else ""
      let special : Parse Expr := do
        match ← parseSpecial g text keyword operand with
        | some e => return e
        | none => parsePlainWord g ident
      if reservedWords.contains keyword then special
      else orElse special (parsePlainWord g ident)
    | _ => fail

/-- A parenthesis opens a subquery, one nested expression or a tuple. -/
def parseGroup : Parse Expr := do
  if ← peekSubquery 0 then
    let query ← g.query
    expect ")"
    return .subquery query
  else
    let es ← commaList (parseExpr g)
    expect ")"
    match es with
    | [e] => return .nested e
    | _ => return (((FrameBuilder.ofText "(").commaOperands es).text ")").expr

def parseSign (op : UnaryOp) : Parse Expr := do
  return .unary op (← g.expr (precedence g.dialect).product)

/-- An operand without the operators behind it; `fuel` bounds intervals within intervals. -/
def parseOperand : Nat → Parse Expr
  | 0 => throw .tooDeep
  | fuel + 1 => do
    let e ← match ← peek 0 with
      | some (.word _ _) => parseWordOperand g (parseOperand fuel)
      | some (.symbol "(") => do
        skip 1
        parseGroup g
      | some (.symbol "-") => do
        skip 1
        parseSign g .minus
      | some (.symbol "+") => do
        skip 1
        parseSign g .plus
      | some (.symbol "[") => do
        skip 1
        parseArrayItems g ""
      | some (.symbol text) =>
        if g.dialect == .postgres && (text == "~" || text == "@") then do
          skip 1
          pure (.unary (.other text) (← g.expr (precedence g.dialect).sum))
        else pure (.value (← parseValue g.dialect))
      | some _ => pure (.value (← parseValue g.dialect))
      | none => fail
    if ← eatWord "COLLATE" then
      let collation ← parseName
      return (((FrameBuilder.ofText "").operand e).text (" COLLATE " ++ collation.render)).expr
    else return e

/-- What may follow an operand without an operator: a part of a dotted name, or an index. -/
inductive Access where
  | part (ident : Ident)
  | index (e : Expr)

def parseAccess : Parse (Option Access) := do
  if ← isAt 0 "." then
    if ← isAt 1 "*" then return none
    skip 1
    return some (.part (← parseIdent))
  else if ← eatIf (g.dialect != .redshift) "[" then
    let e ← parseExpr g
    expect "]"
    return some (.index e)
  else return none

def parseAccesses : Parse (List Access) := do
  let accesses ← repeated (parseAccess g)
  if accesses.length > g.depth then throw .tooDeep
  return accesses

/-- The parts of a dotted name, unless there are indexes too. -/
def nameParts? : List Access → Option (List Ident)
  | [] => some []
  | .part ident :: rest => (nameParts? rest).map (ident :: ·)
  | .index _ :: _ => none

def addAccess (b : FrameBuilder) : Access → FrameBuilder
  | .part ident => b.text ("." ++ ident.render)
  | .index e => ((b.text "[").operand e).text "]"

/-- An operand with what belongs to it: a qualified name, a qualified function, or a place in the
value of the operand. -/
def parseDotted : Parse Expr := do
  let e ← parseOperand g ((← get).length + 1)
  let accesses ← parseAccesses g
  match e, (nameParts? accesses).bind fun parts => parts.getLast?.map fun last => (parts, last) with
  | .column _ first, some (parts, last) =>
    if ← isAt 0 "(" then parseCall g (first :: parts)
    else return .column (first :: parts.dropLast) last
  | e, _ =>
    if accesses.isEmpty then return e
    else return (accesses.foldl addAccess ((FrameBuilder.ofText "").operand e)).expr

def truthTests : List (List String × String) :=
  [(["TRUE"], " IS TRUE"), (["NOT", "TRUE"], " IS NOT TRUE"), (["FALSE"], " IS FALSE"),
    (["NOT", "FALSE"], " IS NOT FALSE"), (["UNKNOWN"], " IS UNKNOWN"),
    (["NOT", "UNKNOWN"], " IS NOT UNKNOWN")]

def distinctTests : List (List String × String) :=
  [(["DISTINCT", "FROM"], " IS DISTINCT FROM "),
    (["NOT", "DISTINCT", "FROM"], " IS NOT DISTINCT FROM ")]

def parseIs (e : Expr) : Parse Expr := do
  if ← eatWord "NULL" then return .isNull false e
  else if ← eatWords ["NOT", "NULL"] then return .isNull true e
  else
    match ← eatChoice truthTests with
    | some test => return (((FrameBuilder.ofText "").operand e).text test).expr
    | none =>
      match ← eatChoice distinctTests with
      | some words =>
        let other ← parseExpr g
        return ((((FrameBuilder.ofText "").operand e).text words).operand other).expr
      | none => fail

def parseIn (negated : Bool) (e : Expr) : Parse Expr := do
  expect "("
  match ← attempt g.query with
  | some query =>
    expect ")"
    return .inQuery negated e query
  | none =>
    if ← eatIf g.dialect.hasEmptyInList ")" then return .inList negated e []
    let items ← commaList (parseExpr g)
    expect ")"
    return .inList negated e items

def parseBetween (negated : Bool) (e : Expr) : Parse Expr := do
  let level := (precedence g.dialect).between
  let low ← g.expr level
  expectWord "AND"
  let high ← g.expr level
  let b := ((FrameBuilder.ofText "").operand e).text (" " ++ notWord negated ++ "BETWEEN ")
  return (((b.operand low).text " AND ").operand high).expr

def parsePattern (kind : PatternKind) (negated : Bool) (e : Expr) : Parse Expr := do
  let pattern ← g.expr (precedence g.dialect).like
  let escape ← if ← eatWord "ESCAPE" then pure (some (← parseValue g.dialect)) else pure none
  return .pattern kind negated e pattern escape

def parseListInfix (e : Expr) : Parse Expr := do
  let negated ← eatWord "NOT"
  match ← eatOneOf ["REGEXP", "RLIKE"] with
  | some keyword =>
    let pattern ← g.expr (precedence g.dialect).like
    return ((((FrameBuilder.ofText "").operand e).text
      (" " ++ notWord negated ++ keyword ++ " ")).operand pattern).expr
  | none =>
    if ← eatWordIf negated "NULL" then return .isNull true e
    else if ← eatWord "IN" then parseIn g negated e
    else if ← eatWord "BETWEEN" then parseBetween g negated e
    else if ← eatWord "LIKE" then parsePattern g .like negated e
    else if ← eatWord "ILIKE" then parsePattern g .caseless negated e
    else if ← eatWords ["SIMILAR", "TO"] then parsePattern g .similar negated e
    else fail

def comparesWithMany (op : BinaryOp) : Bool :=
  match op with
  | .equal | .notEqual | .less | .lessEqual | .greater | .greaterEqual => true
  | .other text => ["~", "~*", "!~", "!~*", "~~", "~~*", "!~~", "!~~*"].contains text
  | _ => false

/-- The right side of an operator; ANY, ALL and SOME compare with a set. -/
def parseBinary (level : Nat) (op : BinaryOp) (left : Expr) : Parse Expr := do
  match ← eatOneOf ["ANY", "ALL", "SOME"] with
  | none => return .binary left op (← g.expr level)
  | some quantifier =>
    let subquery ← peekSubquery 1
    let right ← if subquery then g.expr level else parenthesized (g.expr level)
    if !comparesWithMany op then fail
    let bare := match right with
      | .subquery _ => true
      | _ => false
    let start := ((FrameBuilder.ofText "").operand left).text
      (" " ++ op.text ++ " " ++ quantifier ++ (if bare then "" else "("))
    return ((start.operand right).text (if bare then "" else ")")).expr

def parseInfix (level : Nat) (left : Expr) : Infix → Parse Expr
  | .binary op => do
    skip 1
    parseBinary g level op left
  | .is => do
    skip 1
    parseIs g left
  | .list => parseListInfix g left
  | .zone => do
    skip 3
    let zone ← g.expr level
    return ((((FrameBuilder.ofText "").operand left).text " AT TIME ZONE ").operand zone).expr
  | .cast => do
    skip 1
    let type ← parseType
    return (((FrameBuilder.ofText "").operand left).text ("::" ++ type.text)).expr

/-- Goes on as long as the next operator binds tighter than `level`. -/
def parseInfixes (level : Nat) (left : Expr) : Parse (Option Expr) := do
  match ← peekInfix (precedence g.dialect) with
  | none => return none
  | some (nextLevel, form) =>
    if level < nextLevel then return some (← parseInfix g nextLevel left form) else return none

def parseExprAbove (level : Nat) : Parse Expr := do
  let left ← parseDotted g
  iterate (parseInfixes g level) (← get).length left

end

end SealedColumns.Sql

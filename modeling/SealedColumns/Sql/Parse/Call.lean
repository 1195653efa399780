import SealedColumns.Sql.Parse.Operator
import SealedColumns.Sql.Parse.Type

/-!
Literals, and calls with all that may stand in and behind their parentheses: orders, filters and
windows.
-/
namespace SealedColumns.Sql

open Parse SealedColumns.Text

def joinLiterals (d : Dialect) : Parse (Option String) := do
  if !d.joinsStringLiterals then return none
  match ← peek 0 with
  | some (.string text) | some (.doubleQuoted text) =>
    skip 1
    return some text
  | _ => return none

/-- A literal or a placeholder. A name behind a colon belongs to it only without white space. -/
def parseValue (d : Dialect) : Parse Value := do
  match ← next with
  | .number text long => return .number text long
  | .string text => return .string (text ++ String.join (← repeated (joinLiterals d)))
  | .doubleQuoted text => return .doubleQuoted (text ++ String.join (← repeated (joinLiterals d)))
  | .verbatim text => return .verbatim text
  | .placeholder text =>
    return .placeholder (if text == "?" then .anonymous else .named text)
  | .word text (some quote) =>
    if quote == '"' then return .doubleQuoted text
    else if quote == '\'' then return .string text
    else fail
  | .word text none =>
    match keywordText text with
    | "TRUE" => return .boolean true
    | "FALSE" => return .boolean false
    | "NULL" => return .null
    | _ => fail
  | .symbol mark =>
    if mark == ":" || mark == "@" then
      match ← peekLexeme 0 with
      | some ⟨.word text _, false⟩ | some ⟨.number text false, false⟩ =>
        skip 1
        return .placeholder (.named (mark ++ text))
      | _ => fail
    else fail

section

variable (g : Nested)

def parseExpr : Parse Expr := g.expr 0

def parseStarOrExpr : Parse Expr := do
  match ← attempt (do
    let first ← parseIdent
    let parts ← repeated (attempt (do expect "."; parseIdent))
    expect "."
    expect "*"
    return Expr.star (first :: parts)) with
  | some star => return star
  | none => if ← eat "*" then return .star [] else parseExpr g

/-- The sign between the name of an argument and its value. -/
def parseArrow : Parse String := do
  if ← eatIf g.dialect.hasArrows "=>" then return "=>"
  else if ← eatIf g.dialect.hasExpressionNames ":" then return ":"
  else if ← eat ":=" then return ":="
  else fail

def parseNamedArgument : Parse Expr := do
  if g.dialect.hasExpressionNames then
    let b := (FrameBuilder.ofText "").operand (← parseExpr g)
    let arrow ← parseArrow g
    return ((b.text (" " ++ arrow ++ " ")).operand (← parseStarOrExpr g)).expr
  else
    let name ← parseIdent
    let arrow ← parseArrow g
    return .argument name arrow (← parseStarOrExpr g)

def parseArgument : Parse Expr := orElse (parseNamedArgument g) (parseStarOrExpr g)

def parseQuantifier : Parse (Option Quantifier) := do
  let all ← eatWord "ALL"
  let distinct ← eatWord "DISTINCT"
  if all && distinct then fail
  return if all then some .all else if distinct then some .distinct else none

def timeUnits : List String :=
  ["YEAR", "YEARS", "MONTH", "MONTHS", "WEEK", "WEEKS", "DAY", "DAYS", "HOUR", "HOURS", "MINUTE",
    "MINUTES", "SECOND", "SECONDS", "CENTURY", "DECADE", "QUARTER", "MILLISECOND", "MILLISECONDS",
    "MICROSECOND", "MICROSECONDS"]

def parseInterval (parseOperand : Parse Expr) : Parse Expr := do
  let e ← parseOperand
  let b := (FrameBuilder.ofText "INTERVAL ").operand e
  let unit ← eatOneOf timeUnits
  match unit with
  | none => return b.expr
  | some unit =>
    let last ← if ← eatWord "TO" then
        match ← eatOneOf timeUnits with
        | some last => pure (" TO " ++ last)
        | none => fail
      else pure ""
    return (b.text (" " ++ unit ++ last)).expr

def parseOrderItem (b : FrameBuilder) : Parse FrameBuilder := do
  let e ← parseExpr g
  let direction ← eatOneOf ["ASC", "DESC"]
  let nulls ← eatChoice [(["NULLS", "FIRST"], "NULLS FIRST"), (["NULLS", "LAST"], "NULLS LAST")]
  return (b.operand e).text (optionWord direction ++ optionWord nulls)

def moreOrderItems (b : FrameBuilder) : Parse (Option FrameBuilder) := do
  if ← eat "," then return some (← parseOrderItem g (b.text ", ")) else return none

def parseOrderItems (b : FrameBuilder) : Parse FrameBuilder := do
  let first ← parseOrderItem g b
  iterate (moreOrderItems g) (← get).length first

def parseOrderBy : Parse (List Expr) := do
  if ← eatWords ["ORDER", "BY"] then
    return [(← parseOrderItems g (FrameBuilder.ofText "ORDER BY ")).expr]
  else return []

def clauseOf (words : String) (e : Expr) : Expr := ((FrameBuilder.ofText words).operand e).expr

def parseClause (keyword : String) : Parse (List Expr) := do
  if ← eatWord keyword then return [clauseOf (keyword ++ " ") (← parseExpr g)] else return []

def parseListClause (keywords : List String) (words : String) : Parse (List Expr) := do
  if ← eatWords keywords then
    return [((FrameBuilder.ofText words).commaOperands (← commaList (parseExpr g))).expr]
  else return []

def parseNulls : Parse (List Expr) := do
  match ← eatChoice [(["RESPECT", "NULLS"], "RESPECT NULLS"), (["IGNORE", "NULLS"], "IGNORE NULLS")]
    with
  | some words => return [.words words]
  | none => return []

def parseSeparator : Parse (List Expr) := do
  if ← eatWordIf (g.dialect == .generic || g.dialect == .mysql) "SEPARATOR" then
    return [.words ("SEPARATOR " ++ (← parseValue g.dialect).render)]
  else return []

/-- What may follow the arguments of a call inside its parentheses. -/
def parseArgumentClauses : Parse (List Expr) := do
  let nulls ← if g.dialect == .generic || g.dialect == .bigquery then parseNulls else pure []
  let order ← parseOrderBy g
  let limit ← parseClause g "LIMIT"
  return nulls ++ order ++ limit ++ (← parseSeparator g)

def parseBound : Parse Expr := do
  if ← eatWords ["CURRENT", "ROW"] then return .words "CURRENT ROW"
  let b ← if ← eatWord "UNBOUNDED" then pure (FrameBuilder.ofText "UNBOUNDED")
    else
      match ← peek 0 with
      | some (.string _) =>
        let interval ← parseInterval (Expr.value <$> parseValue g.dialect)
        pure ((FrameBuilder.ofText "").operand interval)
      | _ => pure ((FrameBuilder.ofText "").operand (← parseExpr g))
  match ← eatOneOf ["PRECEDING", "FOLLOWING"] with
  | some side => return (b.text (" " ++ side)).expr
  | none => fail

def parseExtent : Parse (List Expr) := do
  match ← eatOneOf ["ROWS", "RANGE", "GROUPS"] with
  | none => return []
  | some units =>
    if ← eatWord "BETWEEN" then
      let first ← parseBound g
      expectWord "AND"
      let last ← parseBound g
      return [((((FrameBuilder.ofText (units ++ " BETWEEN ")).operand first).text " AND ").operand
        last).expr]
    else return [clauseOf (units ++ " ") (← parseBound g)]

def parseWindowName : Parse (List Expr) := do
  match ← peek 0 with
  | some (.word text quote) =>
    if quote.isNone && ["PARTITION", "ORDER", "ROWS", "RANGE", "GROUPS"].contains (keywordText text)
    then return []
    else
      skip 1
      return [.words (Ident.render ⟨text, quote⟩)]
  | _ => return []

def parseWindow : Parse Expr := do
  expect "("
  let name ← parseWindowName
  let partition ← parseListClause g ["PARTITION", "BY"] "PARTITION BY "
  let order ← parseOrderBy g
  let extent ← parseExtent g
  expect ")"
  let parts := name ++ partition ++ order ++ extent
  return (((FrameBuilder.ofText "(").operandsBetween " " parts).text ")").expr

def parseOver : Parse (List Expr) := do
  if ← eatWord "OVER" then
    if ← isAt 0 "(" then return [clauseOf "OVER " (← parseWindow g)]
    else return [.words ("OVER " ++ (← parseIdent).render)]
  else return []

def parseWithinGroup : Parse (List Expr) := do
  if ← eatWords ["WITHIN", "GROUP"] then
    expect "("
    expectWord "ORDER"
    expectWord "BY"
    let items ← parseOrderItems g (FrameBuilder.ofText "WITHIN GROUP (ORDER BY ")
    expect ")"
    return [(items.text ")").expr]
  else return []

def parseAggregateFilter : Parse (List Expr) := do
  if (← eatWordIf g.dialect.hasAggregateFilter "FILTER") && (← isAt 0 "(") then
    skip 1
    expectWord "WHERE"
    let e ← parseExpr g
    expect ")"
    return [(((FrameBuilder.ofText "FILTER (WHERE ").operand e).text ")").expr]
  else return []

/-- Expressions with blanks between them of which the first one is visited last. -/
def visitedLast (first : Expr) (others : List Expr) : Expr :=
  .framed (.operand others.length ::
    (List.range others.length).flatMap fun i => [.text " ", .operand i]) (others ++ [first])

/-- What may follow the parentheses of a call. The order of a group is written in front of the
other clauses and visited behind them. -/
def parseTail : Parse (List Expr) := do
  let within ← parseWithinGroup g
  let filter ← parseAggregateFilter g
  let nulls ← parseNulls
  let others := filter ++ nulls ++ (← parseOver g)
  match within with
  | [] => return others
  | order :: _ => return [visitedLast order others]

def parseCall (name : Name) : Parse Expr := do
  expect "("
  if ← eat ")" then return .call name none [] [] (← parseTail g)
  let quantifier ← parseQuantifier
  let args ← commaList (parseArgument g)
  let clauses ← parseArgumentClauses g
  expect ")"
  return .call name quantifier args clauses (← parseTail g)

end

end SealedColumns.Sql

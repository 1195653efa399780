import SealedColumns.Sql.Parse.Source

/-!
Queries: select lists, set operations, common table expressions and the clauses behind them.
-/
namespace SealedColumns.Sql

open Parse SealedColumns.Text

section

variable (g : Nested)

def columnListText (names : List Ident) : String :=
  "(" ++ commaJoin (names.map Ident.render) ++ ")"

def parseStarOptions : Parse String := do
  let excluded ← if ← eatWordIf g.dialect.hasStarExclude "EXCLUDE" then
      if ← isAt 0 "(" then pure (" EXCLUDE " ++ columnListText (← parseColumnList))
      else pure (" EXCLUDE " ++ (← parseIdent).render)
    else pure ""
  let left ← if ← eatWordIf g.dialect.hasStarExcept "EXCEPT" then
      let names ← if ← isAt 0 "(" then parseColumnList else pure [← parseIdent]
      pure (" EXCEPT " ++ columnListText names)
    else pure ""
  return excluded ++ left

def parseStar (qualifier : List Ident) : Parse SelectItem := do
  let options ← parseStarOptions g
  if options.isEmpty then return ⟨.star qualifier, none⟩
  else return ⟨(((FrameBuilder.ofText "").operand (.star qualifier)).text options).expr, none⟩

def isFromWord : Expr → Bool
  | .column [] ⟨text, none⟩ => asciiLower text == "from"
  | _ => false

/-- An expression with its alias. In one dialect an equality with a bare name on its left is an
alias too. -/
def parseSelectItem : Parse SelectItem := do
  match ← parseStarOrExpr g with
  | .star qualifier => parseStar g qualifier
  | e =>
    if isFromWord e then fail
    match g.dialect.hasAliasAssignment, e with
    | true, .binary (.column [] name) .equal right => return ⟨right, some name⟩
    | _, e => return ⟨e, ← parseAlias reservedForColumn⟩

def parseTop : Parse Expr := do
  let b ← if ← eat "(" then do
      let e ← parseExpr g
      expect ")"
      pure (((FrameBuilder.ofText "TOP (").operand e).text ")")
    else pure (FrameBuilder.ofText ("TOP " ++ (← parseSizeText)))
  let percent ← eatWord "PERCENT"
  let ties ← eatWords ["WITH", "TIES"]
  return (b.text ((if percent then " PERCENT" else "") ++ (if ties then " WITH TIES" else ""))).expr

def parseDistinct : Parse (List Expr) := do
  let all ← eatWord "ALL"
  if ← eatWord "DISTINCT" then
    if all then fail
    if ← eatWord "ON" then
      expect "("
      let es ← if ← isAt 0 ")" then pure [] else commaList (parseExpr g)
      expect ")"
      return [(((FrameBuilder.ofText "DISTINCT ON (").commaOperands es).text ")").expr]
    else return [.words "DISTINCT"]
  else return []

def parseOptional (keyword : String) (p : Parse Expr) : Parse (Option Expr) := do
  if ← eatWord keyword then return some (← p) else return none

def parseGroupingSet (alone : Bool) : Parse (List Expr) := do
  if alone && !(← isAt 0 "(") then return [← parseExpr g]
  expect "("
  if ← eat ")" then return []
  let es ← commaList (parseExpr g)
  expect ")"
  return es

def groupingSet (alone : Bool) : List Expr → Expr
  | [e] => if alone then e else (((FrameBuilder.ofText "(").operand e).text ")").expr
  | es => (((FrameBuilder.ofText "(").commaOperands es).text ")").expr

/-- Sets of expressions; where one may stand `alone` it loses its parentheses. -/
def parseGroupingSets (words : String) (alone : Bool) : Parse Expr := do
  let sets ← parenthesized (commaList (parseGroupingSet g alone))
  return (((FrameBuilder.ofText (words ++ " (")).commaOperands (sets.map (groupingSet alone))).text
    ")").expr

def groupingWords : List (List String × String × Bool) :=
  [(["GROUPING", "SETS"], "GROUPING SETS", false), (["CUBE"], "CUBE", true),
    (["ROLLUP"], "ROLLUP", true)]

def parseGroupItem : Parse Expr := do
  if !g.dialect.hasGroupingSets then return ← parseExpr g
  match ← eatChoice groupingWords with
  | some (words, alone) => parseGroupingSets g words alone
  | none =>
    if (← isAt 0 "(") && (← isAt 1 ")") then
      skip 2
      return .words "()"
    else parseExpr g

def parseGroupModifier : Parse (Option Expr) := do
  if ← eatWordIf g.dialect.hasGroupModifiers "WITH" then
    match ← eatOneOf ["ROLLUP", "CUBE", "TOTALS"] with
    | some keyword => return some (.words ("WITH " ++ keyword))
    | none => fail
  else return none

def parseGroupBy : Parse (List Expr) := do
  if ← eatWords ["GROUP", "BY"] then
    let group ← if ← eatWord "ALL" then pure (Expr.words "GROUP BY ALL")
      else
        pure ((FrameBuilder.ofText "GROUP BY ").commaOperands (← commaList (parseGroupItem g))).expr
    return group :: (← repeated (parseGroupModifier g))
  else return []

def parseNamedWindow : Parse Expr := do
  let name ← parseIdent
  expectWord "AS"
  return clauseOf (name.render ++ " AS ") (← parseWindow g)

def parseNamedWindows : Parse (List Expr) := do
  if ← eatWord "WINDOW" then
    let windows ← commaList (parseNamedWindow g)
    return [((FrameBuilder.ofText "WINDOW ").commaOperands windows).expr]
  else return []

/-- Named windows and QUALIFY come in either order; the windows are visited first. -/
def parseWindowClauses : Parse (List Expr) := do
  let windows ← parseNamedWindows g
  let qualify ← parseClause g "QUALIFY"
  let later ← if qualify.isEmpty || !windows.isEmpty then pure [] else parseNamedWindows g
  match qualify, later with
  | [e], [window] => return [visitedLast e [window]]
  | _, _ => return windows ++ qualify

def selectOf (order : SelectOrder) (quantifiers : List Expr) (projection : List SelectItem)
    (sources : List FromItem) : Parse Select := do
  let filter ← parseOptional "WHERE" (parseExpr g)
  let group ← parseGroupBy g
  let having ← parseClause g "HAVING"
  let windows ← parseWindowClauses g
  return ⟨order, quantifiers, projection, sources, filter, group ++ having ++ windows⟩

def parseSelectBody (leading : Option (List FromItem)) : Parse Select := do
  expectWord "SELECT"
  let distinct ← parseDistinct g
  let top ← if ← eatWord "TOP" then pure [← parseTop g] else pure []
  let bare ← if g.dialect.hasEmptyProjection then isWordAt 0 "FROM" else pure false
  let projection ← if bare then pure [] else commaList (parseSelectItem g)
  match leading with
  | some sources => selectOf g .sourcesFirst (distinct ++ top) projection sources
  | none =>
    let sources ← if ← eatWord "FROM" then parseSources g else pure []
    selectOf g .standard (distinct ++ top) projection sources

def parseSelect : Parse Select := do
  if ← eatWordIf g.dialect.hasSourcesFirst "FROM" then
    let sources ← parseSources g
    if ← isWordAt 0 "SELECT" then parseSelectBody g (some sources)
    else return ⟨.sourcesOnly, [], [], sources, none, []⟩
  else parseSelectBody g none

def parseSetOp : Parse (Option (SetOp × Nat)) := do
  match (← peek 0).bind Token.keyword? with
  | some "UNION" => return some (.union, 10)
  | some "EXCEPT" => return some (.except, 10)
  | some "MINUS" => return some (.minus, 10)
  | some "INTERSECT" => return some (.intersect, 20)
  | _ => return none

def parseSetQuantifier : Parse SetQuantifier := do
  if ← eatWords ["DISTINCT", "BY", "NAME"] then return .distinctByName
  else if ← eatWords ["BY", "NAME"] then return .byName
  else if ← eatWord "ALL" then
    if ← eatWords ["BY", "NAME"] then return .allByName else return .all
  else if ← eatWord "DISTINCT" then return .distinct
  else return .none

def parseSetOperand : Parse SetExpr := do
  if ← isOneOfAt 0 ["SELECT", "FROM"] then return .select (← parseSelect g)
  else if ← eat "(" then
    let query ← g.query
    expect ")"
    return .query query
  else if ← eatWord "VALUES" then parseValues g
  else fail

/-- Operators that bind tighter than `level`; `right` parses the other side at their level. -/
def parseSetOperations (right : Nat → Parse SetExpr) (level : Nat) (left : SetExpr) :
    Parse (Option SetExpr) := do
  match ← parseSetOp with
  | none => return none
  | some (op, nextLevel) =>
    if nextLevel ≤ level then return none
    skip 1
    let quantifier ← parseSetQuantifier
    return some (.operation op quantifier left (← right nextLevel))

/-- Set operations above `level`. There are two levels of operators, so three steps suffice. -/
def parseSetExprUpTo : Nat → Nat → Parse SetExpr
  | 0, _ => fail
  | fuel + 1, level => do
    let left ← parseSetOperand g
    iterate (parseSetOperations (parseSetExprUpTo fuel) level) (← get).length left

def parseSetExpr : Parse SetExpr := parseSetExprUpTo g 3 0

def parseOffset : Parse Expr := do
  let e ← parseExpr g
  let rows ← eatOneOf ["ROW", "ROWS"]
  return ((FrameBuilder.ofText "OFFSET ").operand e |>.text (optionWord rows)).expr

def parseLimitBy : Parse (List Expr) := do
  if ← eatWordIf (g.dialect == .generic || g.dialect == .clickhouse) "BY" then
    return [((FrameBuilder.ofText "BY ").commaOperands (← commaList (parseExpr g))).expr]
  else return []

/-- The limit is written and visited before the offset, also where the text has them the other way
round. -/
def parseLimit : Parse (List Expr) := do
  let before ← if ← eatWord "OFFSET" then pure [← parseOffset g] else pure []
  if ← eatWord "LIMIT" then
    let limit ← if ← eatWord "ALL" then pure [] else pure [← parseExpr g]
    match limit with
    | [first] =>
      if ← eatIf (before.isEmpty && g.dialect.hasLimitComma) "," then
        let count ← parseExpr g
        return [((((FrameBuilder.ofText "LIMIT ").operand first).text ", ").operand count).expr]
    | _ => pure ()
    let groups ← parseLimitBy g
    let after ← if ← eatWordIf before.isEmpty "OFFSET" then pure [← parseOffset g] else pure []
    return limit.map (clauseOf "LIMIT ") ++ before ++ after ++ groups
  else return before

def parseFetch : Parse (List Expr) := do
  if ← eatWord "FETCH" then
    let _ ← eatOneOf ["FIRST", "NEXT"]
    let b := FrameBuilder.ofText "FETCH FIRST "
    let b ← match ← eatOneOf ["ROW", "ROWS"] with
      | some _ => pure b
      | none => do
        let b := b.operand (.value (← parseValue g.dialect))
        let percent ← eatWord "PERCENT"
        let _ ← eatOneOf ["ROW", "ROWS"]
        pure (b.text (if percent then " PERCENT " else " "))
    let ties ← if ← eatWord "ONLY" then pure false else eatWords ["WITH", "TIES"]
    return [(b.text ("ROWS " ++ if ties then "WITH TIES" else "ONLY")).expr]
  else return []

def parseLock : Parse (Option Expr) := do
  if ← eatWord "FOR" then
    match ← eatOneOf ["UPDATE", "SHARE"] with
    | none => fail
    | some strength =>
      let table ← if ← eatWord "OF" then pure (" OF " ++ Name.render (← parseName)) else pure ""
      let wait ← eatChoice [(["NOWAIT"], "NOWAIT"), (["SKIP", "LOCKED"], "SKIP LOCKED")]
      return some (.words ("FOR " ++ strength ++ table ++ optionWord wait))
  else return none

def parseMaterialized : Parse (Option Bool) := do
  if g.dialect != .postgres then return none
  if ← eatWord "MATERIALIZED" then return some true
  else if ← eatWords ["NOT", "MATERIALIZED"] then return some false
  else return none

def parseCte : Parse Cte := do
  let name ← parseIdent
  let columns ← if ← isWordAt 0 "AS" then pure [] else parseColumnList
  expectWord "AS"
  let materialized ← parseMaterialized g
  return ⟨name, columns, materialized, ← parenthesized g.query⟩

def parseWith : Parse (Bool × List Cte) := do
  if ← eatWord "WITH" then
    let recursive ← eatWord "RECURSIVE"
    return (recursive, ← commaList (parseCte g))
  else return (false, [])

/-- A query; `write` parses a statement that writes rows behind common table expressions. -/
def parseQuery (write : Parse (Option SetExpr)) : Parse Query := do
  let (recursive, ctes) ← parseWith g
  match ← write with
  | some body => return ⟨recursive, ctes, body, []⟩
  | none =>
    let body ← parseSetExpr g
    let order ← parseOrderBy g
    let limit ← parseLimit g
    let fetch ← parseFetch g
    let locks ← repeated parseLock
    return ⟨recursive, ctes, body, order ++ limit ++ fetch ++ locks⟩

end

end SealedColumns.Sql

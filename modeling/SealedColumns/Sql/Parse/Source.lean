import SealedColumns.Sql.Parse.Expr

/-!
The sources of a query: tables, derived tables and joins, with their aliases.
-/
namespace SealedColumns.Sql

open Parse SealedColumns.Text

/-- Words that end a table and so are no alias unless AS introduces them. -/
def reservedForTable : List String :=
  ["WITH", "EXPLAIN", "ANALYZE", "SELECT", "WHERE", "GROUP", "SORT", "HAVING", "ORDER", "PIVOT",
    "UNPIVOT", "TOP", "LATERAL", "VIEW", "LIMIT", "OFFSET", "FETCH", "UNION", "EXCEPT", "INTERSECT",
    "MINUS", "ON", "JOIN", "INNER", "CROSS", "FULL", "LEFT", "RIGHT", "NATURAL", "USING",
    "CLUSTER", "DISTRIBUTE", "GLOBAL", "ANTI", "SEMI", "RETURNING", "OUTPUT", "ASOF",
    "MATCH_CONDITION", "OUTER", "SET", "QUALIFY", "WINDOW", "END", "FOR", "PARTITION", "PREWHERE",
    "SETTINGS", "FORMAT", "START", "CONNECT", "MATCH_RECOGNIZE", "SAMPLE", "TABLESAMPLE", "FROM",
    "OPEN", "STRAIGHT_JOIN"]

/-- Words that end an expression and so are no alias unless AS introduces them. -/
def reservedForColumn : List String :=
  ["WITH", "EXPLAIN", "ANALYZE", "SELECT", "WHERE", "GROUP", "SORT", "HAVING", "ORDER", "TOP",
    "LATERAL", "VIEW", "LIMIT", "OFFSET", "FETCH", "UNION", "EXCEPT", "EXCLUDE", "INTERSECT",
    "MINUS", "CLUSTER", "DISTRIBUTE", "RETURNING", "FROM", "INTO", "END"]

/-- An alias with AS, or one that is no reserved word. A string may be an alias too. -/
def parseAlias (reserved : List String) : Parse (Option Ident) := do
  let explicit ← eatWord "AS"
  match ← peek 0 with
  | some (.word text quote) =>
    if explicit || quote.isSome || !reserved.contains (keywordText text) then
      skip 1
      return some ⟨text, quote⟩
    else return none
  | some (.string text) =>
    skip 1
    return some ⟨text, some '\''⟩
  | some (.doubleQuoted text) =>
    skip 1
    return some ⟨text, some '"'⟩
  | _ => if explicit then fail else return none

def parseTableAlias : Parse (Option TableAlias) := do
  let explicit ← isWordAt 0 "AS"
  match ← parseAlias reservedForTable with
  | none => return none
  | some name =>
    let columns ← if ← isAt 0 "(" then parseColumnList else pure []
    return some ⟨explicit, name, columns⟩

section

variable (g : Nested)

def parseRow : Parse (List Expr) := do
  expect "("
  if ← eatIf (g.dialect == .mysql) ")" then return []
  let es ← commaList (parseExpr g)
  expect ")"
  return es

def parseValuesRow : Parse (Bool × List Expr) := do
  let rowWord ← eatWord "ROW"
  return (rowWord, ← parseRow g)

def parseValues : Parse SetExpr := do
  let rows ← commaList (parseValuesRow g)
  return .values (rows.any Prod.fst) (rows.map Prod.snd)

def parseDerived (lateral : Bool) : Parse TableFactor := do
  let query ← g.query
  expect ")"
  return .derived lateral query (← parseTableAlias)

def addAlias (label : TableAlias) : TableFactor → Parse TableFactor
  | .table name isCall args none => return .table name isCall args (some label)
  | .derived lateral query none => return .derived lateral query (some label)
  | .nested item none => return .nested item (some label)
  | _ => fail

/-- The inside of a parenthesis that is no query: a join, or a lone table where that is allowed. -/
def parseGroupedTables (item : Parse FromItem) : Parse TableFactor := do
  let inner ← item
  let isNested := match inner.relation with
    | .nested _ _ => true
    | _ => false
  if !inner.joins.isEmpty || isNested then
    expect ")"
    return .nested inner (← parseTableAlias)
  else if g.dialect.hasLoneParentheses then
    expect ")"
    match ← parseTableAlias with
    | none => return inner.relation
    | some label => addAlias label inner.relation
  else fail

def parseTableArguments : Parse (List Expr) := do
  if ← eat ")" then return []
  let args ← commaList (parseArgument g)
  expect ")"
  return args

def parseTable : Parse TableFactor := do
  let name ← parseName
  let isCall ← eat "("
  let args ← if isCall then parseTableArguments g else pure []
  return .table name isCall args (← parseTableAlias)

/-- A table, a subquery or a parenthesized join; `item` parses what a parenthesis may hold. -/
def parseFactor (item : Parse FromItem) : Parse TableFactor := do
  if ← eatWord "LATERAL" then
    expect "("
    parseDerived g true
  else if ← eat "(" then orElse (parseDerived g false) (parseGroupedTables g item)
  else if g.dialect.hasValuesSource && (← isWordAt 0 "VALUES") && (← isAt 1 "(") then
    skip 1
    let rows ← parseValues g
    return .derived false ⟨false, [], rows, []⟩ (← parseTableAlias)
  else parseTable g

def joinWords : List (List String × JoinKind) :=
  [(["JOIN"], .plain), (["INNER", "JOIN"], .inner), (["LEFT", "JOIN"], .left),
    (["LEFT", "OUTER", "JOIN"], .leftOuter), (["RIGHT", "JOIN"], .right),
    (["RIGHT", "OUTER", "JOIN"], .rightOuter), (["FULL", "JOIN"], .full),
    (["FULL", "OUTER", "JOIN"], .full), (["LEFT", "SEMI", "JOIN"], .leftSemi),
    (["RIGHT", "SEMI", "JOIN"], .rightSemi), (["LEFT", "ANTI", "JOIN"], .leftAnti),
    (["RIGHT", "ANTI", "JOIN"], .rightAnti), (["SEMI", "JOIN"], .semi), (["ANTI", "JOIN"], .anti),
    (["STRAIGHT_JOIN"], .straight)]

/-- Words that can only go on to a join. -/
def joinStarts : List String := ["CROSS", "INNER", "LEFT", "RIGHT", "FULL", "OUTER", "NATURAL"]

def parseCondition : Parse (Option Expr × List Name) := do
  if ← eatWord "ON" then return (some (← parseExpr g), [])
  else if ← eatWord "USING" then return (none, ← parenthesized (commaList parseName))
  else return (none, [])

def parseJoin (factor : Parse TableFactor) : Parse (Option Join) := do
  if ← eatWords ["CROSS", "JOIN"] then
    return some ⟨.cross, false, ← factor, none, []⟩
  let natural ← eatWord "NATURAL"
  match ← eatChoice joinWords with
  | none => if natural || (← isOneOfAt 0 joinStarts) then fail else return none
  | some kind =>
    let relation ← factor
    if natural then return some ⟨kind, true, relation, none, []⟩
    let (condition, shared) ← parseCondition g
    return some ⟨kind, false, relation, condition, shared⟩

/-- A table with its joins; `fuel` bounds parentheses within parentheses. -/
def parseFromItemUpTo : Nat → Parse FromItem
  | 0 => throw .tooDeep
  | fuel + 1 => do
    let factor := parseFactor g (parseFromItemUpTo fuel)
    let relation ← factor
    return ⟨relation, ← repeated (parseJoin g factor)⟩

def parseFromItem : Parse FromItem := do
  parseFromItemUpTo g ((← get).length + 1)

def parseSources : Parse (List FromItem) := commaList (parseFromItem g)

end

end SealedColumns.Sql

import SealedColumns.Sql.Parse.Query
import SealedColumns.Sql.Lexer

/-!
Statements, and the parser of a whole text. Statements, queries and expressions may be nested fifty
deep.
-/
namespace SealedColumns.Sql

open Parse

section

variable (g : Nested)

def parseTarget : Parse Target := do
  if ← isAt 0 "(" then return .tuple (← parenthesized (commaList parseName))
  else return .column (← parseName)

def parseAssignment : Parse Assignment := do
  let target ← parseTarget
  expect "="
  return ⟨target, ← parseExpr g⟩

def parseAssignments : Parse (List Assignment) := commaList (parseAssignment g)

/-- How a write goes on after a conflict, in the form with OR. -/
def parseResolution : Parse (Option String) := do
  if ← isWordAt 0 "OR" then
    if ← isOneOfAt 1 ["REPLACE", "ROLLBACK", "ABORT", "FAIL", "IGNORE"] then
      skip 1
      eatOneOf ["REPLACE", "ROLLBACK", "ABORT", "FAIL", "IGNORE"]
    else return none
  else return none

def returningItem (b : FrameBuilder) (item : SelectItem) : FrameBuilder :=
  match item.label with
  | none => b.operand item.expr
  | some label => (b.operand item.expr).text (" AS " ++ label.render)

def returningItems (b : FrameBuilder) : List SelectItem → FrameBuilder
  | [] => b
  | [item] => returningItem b item
  | item :: rest => returningItems ((returningItem b item).text ", ") rest

def parseReturning : Parse (List Expr) := do
  if ← eatWord "RETURNING" then
    let items ← commaList (parseSelectItem g)
    return [(returningItems (FrameBuilder.ofText "RETURNING ") items).expr]
  else return []

def parseVerb (replace : Bool) (resolution : Option String) : Parse InsertVerb := do
  let modifiers := g.dialect.hasInsertModifiers
  let priority ← if modifiers then eatOneOf ["LOW_PRIORITY", "DELAYED", "HIGH_PRIORITY"]
    else pure none
  let ignore ← if modifiers then eatWord "IGNORE" else pure false
  let overwrite ← eatWord "OVERWRITE"
  let into ← eatWord "INTO"
  return ⟨replace, resolution, priority, ignore, overwrite, into, ← eatWord "TABLE"⟩

def parseInsertColumns : Parse (List Ident) := do
  if (← isAt 0 "(") && !(← peekSubquery 1) then
    if g.dialect == .mysql && (← isAt 1 ")") then
      skip 2
      return []
    else parseColumnList
  else return []

def parseConflictTarget : Parse ConflictTarget := do
  if ← eatWords ["ON", "CONSTRAINT"] then return .constraint (← parseName)
  else if ← isAt 0 "(" then return .columns (← parseColumnList)
  else return .any

def parseConflict : Parse (ConflictRule × List Assignment × Option Expr) := do
  if ← eatWords ["ON", "CONFLICT"] then
    let target ← parseConflictTarget
    expectWord "DO"
    if ← eatWord "NOTHING" then return (.ignore target, [], none)
    expectWord "UPDATE"
    expectWord "SET"
    let updates ← parseAssignments g
    return (.update target, updates, ← parseOptional "WHERE" (parseExpr g))
  else if ← eatWord "ON" then
    expectWord "DUPLICATE"
    expectWord "KEY"
    expectWord "UPDATE"
    return (.duplicateKey, ← parseAssignments g, none)
  else return (.none, [], none)

def parseRowAlias : Parse (Option TableAlias) := do
  if ← eatWord "AS" then
    let name ← parseIdent
    let columns ← if ← isAt 0 "(" then parseColumnList else pure []
    return some ⟨true, name, columns⟩
  else return none

def parseInsert (replace : Bool) (resolution : Option String) : Parse Insert := do
  let verb ← parseVerb g replace resolution
  let table ← parseName
  let label ← if ← eatWordIf (g.dialect == .postgres) "AS" then pure (some (← parseIdent))
    else pure none
  let (columns, source, assignments) ← if ← eatWords ["DEFAULT", "VALUES"] then
      pure ([], none, [])
    else do
      let columns ← parseInsertColumns g
      if ← eatWordIf g.dialect.hasInsertSet "SET" then
        pure (columns, none, ← parseAssignments g)
      else pure (columns, some (← g.query), [])
  let rowAlias ← if g.dialect.hasInsertModifiers then parseRowAlias else pure none
  let (conflict, updates, updateFilter) ← parseConflict g
  let returning ← parseReturning g
  return ⟨verb, table, label, columns, source, assignments, rowAlias, conflict, updates,
    updateFilter, returning⟩

def parseInsertStatement : Parse Insert := do
  let resolution ← parseResolution
  parseInsert g false resolution

/-- REPLACE is a statement of its own in two dialects, and short for OR REPLACE in a third. -/
def parseReplace : Parse Insert := do
  match g.dialect with
  | .mysql | .generic => parseInsert g true none
  | .sqlite => parseInsert g false (some "REPLACE")
  | _ => fail

def parseUpdate : Parse Update := do
  let resolution ← parseResolution
  let target ← parseFromItem g
  let before ← if ← eatWord "FROM" then pure (some (← parseSources g)) else pure none
  expectWord "SET"
  let assignments ← parseAssignments g
  let after ← if ← eatWordIf before.isNone "FROM" then parseSources g else pure []
  let filter ← parseOptional "WHERE" (parseExpr g)
  let returning ← parseReturning g
  let limit ← parseClause g "LIMIT"
  return ⟨resolution, target, before.isSome, assignments, before.getD after, filter,
    returning ++ limit⟩

def parseDelete : Parse Delete := do
  let fromNow ← eatWord "FROM"
  let bare := !fromNow && g.dialect.hasBareDelete
  let targets ← if fromNow || bare then pure [] else commaList parseName
  if !fromNow && !bare then expectWord "FROM"
  let sources ← parseSources g
  let usingSources ← if ← eatWord "USING" then parseSources g else pure []
  let filter ← parseOptional "WHERE" (parseExpr g)
  let returning ← parseReturning g
  let order ← parseOrderBy g
  let limit ← parseClause g "LIMIT"
  return ⟨targets, !bare, sources, usingSources, filter, returning ++ order ++ limit⟩

def parseWrite : Parse (Option SetExpr) := do
  if ← eatWord "INSERT" then return some (.insert (← parseInsertStatement g))
  else if ← eatWord "UPDATE" then return some (.update (← parseUpdate g))
  else if ← eatWord "DELETE" then return some (.delete (← parseDelete g))
  else return none

def parseColumnOption (b : FrameBuilder) : Parse (Option FrameBuilder) := do
  if ← eatWords ["NOT", "NULL"] then return some (b.text " NOT NULL")
  else if ← eatWord "NULL" then return some (b.text " NULL")
  else if ← eatWords ["PRIMARY", "KEY"] then return some (b.text " PRIMARY KEY")
  else if ← eatWord "UNIQUE" then return some (b.text " UNIQUE")
  else if ← eatWord "AUTO_INCREMENT" then return some (b.text " AUTO_INCREMENT")
  else if ← eatWord "DEFAULT" then
    return some ((b.text " DEFAULT ").operand (← g.expr (precedence g.dialect).not))
  else if ← eatWord "CHECK" then
    return some (((b.text " CHECK (").operand (← parenthesized (parseExpr g))).text ")")
  else return none

def endsType : Parse Bool := do
  return (← isAt 0 ",") || (← isAt 0 ")")

def parseKeyColumns (b : FrameBuilder) (words : String) : Parse FrameBuilder := do
  return b.text (words ++ " (" ++ commaJoin ((← parseColumnList).map Ident.render) ++ ")")

def parseColumnDefinition (b : FrameBuilder) : Parse FrameBuilder := do
  if ← eatWords ["PRIMARY", "KEY"] then parseKeyColumns b "PRIMARY KEY"
  else if (← isWordAt 0 "UNIQUE") && (← isAt 1 "(") then
    skip 1
    parseKeyColumns b "UNIQUE"
  else
    let name ← parseIdent
    let type ← if ← endsType then pure "" else pure (" " ++ (← parseType).text)
    iterate (parseColumnOption g) (← get).length (b.text (name.render ++ type))

def moreColumnDefinitions (b : FrameBuilder) : Parse (Option FrameBuilder) := do
  if ← eat "," then return some (← parseColumnDefinition g (b.text ", ")) else return none

def parseTableDefinition (lead : String) : Parse Statement := do
  let conditional ← eatWords ["IF", "NOT", "EXISTS"]
  let name ← parseName
  let b := FrameBuilder.ofText
    (lead ++ "TABLE " ++ (if conditional then "IF NOT EXISTS " else "") ++ name.render)
  let b ← if ← eat "(" then do
      let first ← parseColumnDefinition g (b.text " (")
      let all ← iterate (moreColumnDefinitions g) (← get).length first
      expect ")"
      pure (all.text ")")
    else pure b
  if ← eatWord "AS" then
    return .other [name] (b.text " AS ").frame b.operands (some (← g.query))
  else return .other [name] b.frame b.operands none

def parseViewDefinition (lead : String) : Parse Statement := do
  let conditional ← eatWords ["IF", "NOT", "EXISTS"]
  let name ← parseName
  let columns ← if ← isAt 0 "(" then parseColumnList else pure []
  expectWord "AS"
  let query ← g.query
  return .other []
    [.text (lead ++ "VIEW " ++ (if conditional then "IF NOT EXISTS " else "") ++ name.render ++
      columnList columns ++ " AS ")] [] (some query)

def parseCreate : Parse Statement := do
  let replace ← eatWords ["OR", "REPLACE"]
  let temporary ← eatOneOf ["TEMPORARY", "TEMP"]
  let lead := "CREATE " ++ (if replace then "OR REPLACE " else "") ++
    (if temporary.isSome then "TEMPORARY " else "")
  if ← eatWord "TABLE" then parseTableDefinition g lead
  else if ← eatWord "VIEW" then parseViewDefinition g lead
  else fail

def wordsStatement (tables : List Name) (text : String) : Statement :=
  .other tables [.text text] [] none

def parseDrop : Parse Statement := do
  match ← eatOneOf ["TABLE", "VIEW", "INDEX", "SCHEMA", "DATABASE", "SEQUENCE"] with
  | none => fail
  | some kind =>
    let conditional ← eatWords ["IF", "EXISTS"]
    let names ← commaList parseName
    let behavior ← eatOneOf ["CASCADE", "RESTRICT"]
    return wordsStatement [] ("DROP " ++ kind ++ flagWord conditional "IF EXISTS" ++ " " ++
      commaJoin (names.map Name.render) ++ optionWord behavior)

def parseTruncate : Parse Statement := do
  let tableWord ← eatWord "TABLE"
  let names ← commaList parseName
  let identity ← eatChoice [(["RESTART", "IDENTITY"], "RESTART IDENTITY"),
    (["CONTINUE", "IDENTITY"], "CONTINUE IDENTITY")]
  let behavior ← eatOneOf ["CASCADE", "RESTRICT"]
  return wordsStatement names ("TRUNCATE" ++ flagWord tableWord "TABLE" ++ " " ++
    commaJoin (names.map Name.render) ++ optionWord identity ++ optionWord behavior)

/-- A plan of a statement, which may not be a plan itself, or the description of a table. -/
def parseExplain (verb : String) : Parse Statement := do
  let analyze ← eatWord "ANALYZE"
  let verbose ← eatWord "VERBOSE"
  let words := verb ++ flagWord analyze "ANALYZE" ++ flagWord verbose "VERBOSE"
  match ← attempt g.statement with
  | some (.explain _ _) => fail
  | some statement => return .explain words statement
  | none =>
    let tableWord ← eatWord "TABLE"
    let name ← parseName
    return wordsStatement [name] (verb ++ flagWord tableWord "TABLE" ++ " " ++ name.render)

def parseKeywordStatement (keyword : String) : Parse Statement := do
  match keyword with
  | "SELECT" | "WITH" | "VALUES" | "FROM" => return .query (← g.query)
  | "INSERT" =>
    skip 1
    return .insert (← parseInsertStatement g)
  | "REPLACE" =>
    skip 1
    return .insert (← parseReplace g)
  | "UPDATE" =>
    skip 1
    return .update (← parseUpdate g)
  | "DELETE" =>
    skip 1
    return .delete (← parseDelete g)
  | "EXPLAIN" | "DESCRIBE" | "DESC" =>
    skip 1
    parseExplain g keyword
  | "CREATE" =>
    skip 1
    parseCreate g
  | "DROP" =>
    skip 1
    parseDrop
  | "TRUNCATE" =>
    skip 1
    parseTruncate
  | _ => fail

def parseStatement : Parse Statement := do
  match ← peek 0 with
  | some (.symbol "(") => return .query (← g.query)
  | some token =>
    match token.keyword? with
    | some keyword => parseKeywordStatement g keyword
    | none => fail
  | none => fail

end

def tooDeep {α : Type} : Parse α := throw .tooDeep

/-- The parsers with `depth` levels left. -/
def nestedParsers (d : Dialect) : Nat → Nested
  | 0 => ⟨d, 0, fun _ => tooDeep, tooDeep, tooDeep⟩
  | depth + 1 =>
    let inner := nestedParsers d depth
    ⟨d, depth + 1, parseExprAbove inner, parseQuery inner (parseWrite inner),
      parseStatement inner⟩

def depthLimit : Nat := 50

def skipSemicolons : Parse (Option Unit) := do
  if ← eat ";" then return some () else return none

/-- One statement after the separators; `delimited` tells whether one may start here. -/
def parseStatementsUpTo (g : Nested) : Nat → Bool → Parse (List Statement)
  | 0, _ => pure []
  | fuel + 1, first => do
    let separators ← repeated skipSemicolons
    let delimited := first || !separators.isEmpty
    if (← get).isEmpty then return []
    if !delimited then
      if ← isWordAt 0 "END" then return [] else fail
    let statement ← g.statement
    return statement :: (← parseStatementsUpTo g fuel false)

def parseStatements? (d : Dialect) (sql : String) : Option (List Statement) := do
  let tokens ← tokenize? d sql
  match parseStatementsUpTo (nestedParsers d depthLimit) (tokens.length + 1) true tokens with
  | .ok (statements, _) => some statements
  | .error _ => none

inductive ParseFailure where
  | syntaxError
  | statementCount (count : Nat)
deriving DecidableEq, Repr

def parseOne (d : Dialect) (sql : String) : Except ParseFailure Statement :=
  match parseStatements? d sql with
  | none => .error .syntaxError
  | some [statement] => .ok statement
  | some statements => .error (.statementCount statements.length)

end SealedColumns.Sql

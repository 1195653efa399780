import SealedColumns.Sql.Syntax

/-!
The canonical text of a statement: keywords in upper case, single blanks, names, numbers and
function names as they were written.
-/
namespace SealedColumns.Sql

/-- Doubles a quote character that stands alone. Two in a row are taken for one that is doubled
already, and one behind a backslash for one that is escaped; both stay as they are. -/
def escapeQuotes (quote : Char) : Char → List Char → List Char
  | _, [] => []
  | previous, [c] => if c == quote && previous != '\\' then [c, c] else [c]
  | previous, c :: d :: rest =>
    if c == quote then
      if previous == '\\' then c :: escapeQuotes quote previous (d :: rest)
      else if d == quote then c :: d :: escapeQuotes quote c rest
      else c :: c :: escapeQuotes quote c (d :: rest)
    else c :: escapeQuotes quote c (d :: rest)

def quoteText (quote : Char) (text : String) : String :=
  String.ofList (quote :: escapeQuotes quote (Char.ofNat 0) text.toList ++ [quote])

def commaJoin (texts : List String) : String := String.intercalate ", " texts

def Ident.render (ident : Ident) : String :=
  match ident.quote with
  | none => ident.text
  | some '[' => "[" ++ ident.text ++ "]"
  | some quote => quoteText quote ident.text

def Name.render (name : Name) : String := String.intercalate "." (name.map Ident.render)

def Mark.render : Mark → String
  | .anonymous => "?"
  | .named text => text

def Value.render : Value → String
  | .number text long => if long then text ++ "L" else text
  | .string text => quoteText '\'' text
  | .doubleQuoted text => quoteText '"' text
  | .verbatim text => text
  | .boolean value => if value then "true" else "false"
  | .null => "NULL"
  | .placeholder mark => mark.render

def UnaryOp.text : UnaryOp → String
  | .not => "NOT "
  | .minus => "-"
  | .plus => "+"
  | .other text => text

def BinaryOp.text : BinaryOp → String
  | .or => "OR"
  | .and => "AND"
  | .xor => "XOR"
  | .equal => "="
  | .notEqual => "<>"
  | .less => "<"
  | .lessEqual => "<="
  | .greater => ">"
  | .greaterEqual => ">="
  | .plus => "+"
  | .minus => "-"
  | .times => "*"
  | .divide => "/"
  | .modulo => "%"
  | .concat => "||"
  | .other text => text

def PatternKind.text : PatternKind → String
  | .like => "LIKE"
  | .caseless => "ILIKE"
  | .similar => "SIMILAR TO"

def Quantifier.text : Quantifier → String
  | .all => "ALL "
  | .distinct => "DISTINCT "

def notWord (negated : Bool) : String := if negated then "NOT " else ""

def Piece.render (operands : List String) : Piece → String
  | .text words => words
  | .operand index => operands[index]?.getD ""

def renderFrame (frame : List Piece) (operands : List String) : String :=
  String.join (frame.map (Piece.render operands))

def columnList (columns : List Ident) : String :=
  if columns.isEmpty then "" else " (" ++ commaJoin (columns.map Ident.render) ++ ")"

def renderLabel : Option TableAlias → String
  | none => ""
  | some label =>
    (if label.explicit then " AS " else " ") ++ label.name.render ++ columnList label.columns

def JoinKind.text : JoinKind → String
  | .plain => "JOIN"
  | .inner => "INNER JOIN"
  | .left => "LEFT JOIN"
  | .leftOuter => "LEFT OUTER JOIN"
  | .right => "RIGHT JOIN"
  | .rightOuter => "RIGHT OUTER JOIN"
  | .full => "FULL JOIN"
  | .cross => "CROSS JOIN"
  | .straight => "STRAIGHT_JOIN"
  | .leftSemi => "LEFT SEMI JOIN"
  | .rightSemi => "RIGHT SEMI JOIN"
  | .leftAnti => "LEFT ANTI JOIN"
  | .rightAnti => "RIGHT ANTI JOIN"
  | .semi => "SEMI JOIN"
  | .anti => "ANTI JOIN"

def SetOp.text : SetOp → String
  | .union => "UNION"
  | .except => "EXCEPT"
  | .minus => "MINUS"
  | .intersect => "INTERSECT"

def SetQuantifier.text : SetQuantifier → String
  | .none => ""
  | .all => " ALL"
  | .distinct => " DISTINCT"
  | .byName => " BY NAME"
  | .allByName => " ALL BY NAME"
  | .distinctByName => " DISTINCT BY NAME"

def Target.render : Target → String
  | .column name => name.render
  | .tuple names => "(" ++ commaJoin (names.map Name.render) ++ ")"

def optionWord (word : Option String) : String :=
  match word with
  | none => ""
  | some text => " " ++ text

def flagWord (present : Bool) (text : String) : String := if present then " " ++ text else ""

def InsertVerb.render (verb : InsertVerb) : String :=
  match verb.resolution with
  | some resolution => "INSERT OR " ++ resolution ++ " INTO"
  | none =>
    (if verb.replace then "REPLACE" else "INSERT") ++ optionWord verb.priority ++
      flagWord verb.ignore "IGNORE" ++ flagWord verb.overwrite "OVERWRITE" ++
      flagWord verb.into "INTO" ++ flagWord verb.tableWord "TABLE"

def ConflictTarget.render : ConflictTarget → String
  | .any => ""
  | .columns names => "(" ++ commaJoin (names.map Ident.render) ++ ")"
  | .constraint name => " ON CONSTRAINT " ++ name.render

def ConflictRule.render : ConflictRule → String
  | .none => ""
  | .ignore target => " ON CONFLICT" ++ target.render ++ " DO NOTHING"
  | .update target => " ON CONFLICT" ++ target.render ++ " DO UPDATE SET "
  | .duplicateKey => " ON DUPLICATE KEY UPDATE "

def listAfter (word : String) (texts : List String) : String :=
  if texts.isEmpty then "" else word ++ commaJoin texts

def spaced (texts : List String) : String := String.join (texts.map (" " ++ ·))

def renderSelect (order : SelectOrder) (quantifiers projection sources : List String)
    (filter : String) (clauses : List String) : String :=
  let head := "SELECT" ++ spaced quantifiers ++ listAfter " " projection
  let tail := filter ++ spaced clauses
  match order with
  | .standard => head ++ listAfter " FROM " sources ++ tail
  | .sourcesFirst => listAfter "FROM " sources ++ " " ++ head ++ tail
  | .sourcesOnly => listAfter "FROM " sources ++ tail

def renderCte (name : Ident) (columns : List Ident) (materialized : Option Bool) (query : String) :
    String :=
  let hint := match materialized with
    | none => ""
    | some true => "MATERIALIZED "
    | some false => "NOT MATERIALIZED "
  name.render ++ columnList columns ++ " AS " ++ hint ++ "(" ++ query ++ ")"

mutual

def Expr.render : Expr → String
  | .column qualifier name => Name.render (qualifier ++ [name])
  | .value value => value.render
  | .nested inner => "(" ++ inner.render ++ ")"
  | .unary op operand => op.text ++ operand.render
  | .isNull negated operand => operand.render ++ " IS " ++ notWord negated ++ "NULL"
  | .binary left op right => left.render ++ " " ++ op.text ++ " " ++ right.render
  | .pattern kind negated subject pattern escape =>
    subject.render ++ " " ++ notWord negated ++ kind.text ++ " " ++ pattern.render ++
      (match escape with
      | none => ""
      | some value => " ESCAPE " ++ value.render)
  | .inList negated subject items =>
    subject.render ++ " " ++ notWord negated ++ "IN (" ++ commaJoin (renderExprs items) ++ ")"
  | .inQuery negated subject query =>
    subject.render ++ " " ++ notWord negated ++ "IN (" ++ query.render ++ ")"
  | .call name quantifier args clauses tail =>
    name.render ++ "(" ++ quantifier.elim "" Quantifier.text ++ commaJoin (renderExprs args) ++
      spaced (renderExprs clauses) ++ ")" ++ spaced (renderExprs tail)
  | .argument name arrow value => name.render ++ " " ++ arrow ++ " " ++ value.render
  | .star qualifier => String.join (qualifier.map fun ident => ident.render ++ ".") ++ "*"
  | .existence negated query => notWord negated ++ "EXISTS (" ++ query.render ++ ")"
  | .subquery query => "(" ++ query.render ++ ")"
  | .framed frame operands => renderFrame frame (renderExprs operands)

def renderExprs : List Expr → List String
  | [] => []
  | e :: es => e.render :: renderExprs es

def renderFilter : Option Expr → String
  | none => ""
  | some e => " WHERE " ++ e.render

def renderRows (word : String) : List (List Expr) → List String
  | [] => []
  | row :: rows => (word ++ "(" ++ commaJoin (renderExprs row) ++ ")") :: renderRows word rows

def SelectItem.render : SelectItem → String
  | ⟨expr, none⟩ => expr.render
  | ⟨expr, some label⟩ => expr.render ++ " AS " ++ label.render

def renderItems : List SelectItem → List String
  | [] => []
  | item :: items => item.render :: renderItems items

def Assignment.render : Assignment → String
  | ⟨target, value⟩ => target.render ++ " = " ++ value.render

def renderAssignments : List Assignment → List String
  | [] => []
  | a :: rest => a.render :: renderAssignments rest

def TableFactor.render : TableFactor → String
  | .table name isCall args label =>
    name.render ++ (if isCall then "(" ++ commaJoin (renderExprs args) ++ ")" else "") ++
      renderLabel label
  | .derived lateral query label =>
    (if lateral then "LATERAL " else "") ++ "(" ++ query.render ++ ")" ++ renderLabel label
  | .nested item label => "(" ++ item.render ++ ")" ++ renderLabel label

def Join.render : Join → String
  | ⟨kind, natural, relation, condition, shared⟩ =>
    (if natural then " NATURAL " else " ") ++ kind.text ++ " " ++ relation.render ++
      (match condition with
      | none => ""
      | some e => " ON " ++ e.render) ++
      (if shared.isEmpty then "" else " USING(" ++ commaJoin (shared.map Name.render) ++ ")")

def renderJoins : List Join → String
  | [] => ""
  | j :: js => j.render ++ renderJoins js

def FromItem.render : FromItem → String
  | ⟨relation, joins⟩ => relation.render ++ renderJoins joins

def renderSources : List FromItem → List String
  | [] => []
  | item :: items => item.render :: renderSources items

def Select.render : Select → String
  | ⟨order, quantifiers, projection, sources, filter, clauses⟩ =>
    renderSelect order (renderExprs quantifiers) (renderItems projection) (renderSources sources)
      (renderFilter filter) (renderExprs clauses)

def SetExpr.render : SetExpr → String
  | .select select => select.render
  | .query query => "(" ++ query.render ++ ")"
  | .operation op quantifier left right =>
    left.render ++ " " ++ op.text ++ quantifier.text ++ " " ++ right.render
  | .values rowWord rows =>
    "VALUES " ++ commaJoin (renderRows (if rowWord then "ROW" else "") rows)
  | .insert insert => insert.render
  | .update update => update.render
  | .delete delete => delete.render

def Cte.render : Cte → String
  | ⟨name, columns, materialized, query⟩ => renderCte name columns materialized query.render

def renderCtes : List Cte → List String
  | [] => []
  | c :: cs => c.render :: renderCtes cs

def Query.render : Query → String
  | ⟨recursive, ctes, body, clauses⟩ =>
    (if ctes.isEmpty then ""
      else
        "WITH " ++ (if recursive then "RECURSIVE " else "") ++ commaJoin (renderCtes ctes) ++ " ")
      ++ body.render ++ spaced (renderExprs clauses)

def renderQuery? : Option Query → String
  | none => ""
  | some query => query.render

def Insert.render : Insert → String
  | ⟨verb, table, label, columns, source, assignments, rowAlias, conflict, updates, updateFilter,
      clauses⟩ =>
    verb.render ++ " " ++ table.render ++ (label.elim "" fun ident => " AS " ++ ident.render) ++
      columnList columns ++
      (if source.isSome then " " ++ renderQuery? source
        else if assignments.isEmpty then (if columns.isEmpty then " DEFAULT VALUES" else "")
        else " SET " ++ commaJoin (renderAssignments assignments)) ++
      renderLabel rowAlias ++ conflict.render ++ commaJoin (renderAssignments updates) ++
      renderFilter updateFilter ++ spaced (renderExprs clauses)

def Update.render : Update → String
  | ⟨resolution, target, sourcesFirst, assignments, sources, filter, clauses⟩ =>
    let sources := listAfter " FROM " (renderSources sources)
    "UPDATE" ++ (resolution.elim "" fun word => " OR " ++ word) ++ " " ++ target.render ++
      (if sourcesFirst then sources else "") ++ " SET " ++
      commaJoin (renderAssignments assignments) ++ (if sourcesFirst then "" else sources) ++
      renderFilter filter ++ spaced (renderExprs clauses)

def Delete.render : Delete → String
  | ⟨targets, fromWord, sources, usingSources, filter, clauses⟩ =>
    "DELETE" ++ listAfter " " (targets.map Name.render) ++ (if fromWord then " FROM " else " ") ++
      commaJoin (renderSources sources) ++ listAfter " USING " (renderSources usingSources) ++
      renderFilter filter ++ spaced (renderExprs clauses)

end

theorem Update.render_mk (resolution : Option String) (target : FromItem) (sourcesFirst : Bool)
    (assignments : List Assignment) (sources : List FromItem) (filter : Option Expr)
    (clauses : List Expr) :
    Update.render ⟨resolution, target, sourcesFirst, assignments, sources, filter, clauses⟩ =
      "UPDATE" ++ (resolution.elim "" fun word => " OR " ++ word) ++ " " ++ target.render ++
        (if sourcesFirst then listAfter " FROM " (renderSources sources) else "") ++ " SET " ++
        commaJoin (renderAssignments assignments) ++
        (if sourcesFirst then "" else listAfter " FROM " (renderSources sources)) ++
        renderFilter filter ++ spaced (renderExprs clauses) := rfl

def Statement.render : Statement → String
  | .query q => q.render
  | .insert x => x.render
  | .update x => x.render
  | .delete x => x.render
  | .explain words statement => words ++ " " ++ statement.render
  | .other _ frame operands q => renderFrame frame (renderExprs operands) ++ renderQuery? q

end SealedColumns.Sql

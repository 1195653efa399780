/-!
The tree of a statement. Every construct that sealing looks into has a node of its own; all
others are carried along as fixed text around operand expressions. Operands and lists stand in
visit order, which is the order in which placeholders count.
-/
namespace SealedColumns.Sql

/-- An identifier with the quote it is written in: a double quote, backquote, single quote or an
opening bracket. -/
structure Ident where
  text : String
  quote : Option Char
deriving DecidableEq, Repr

def Ident.bare (text : String) : Ident := ⟨text, none⟩

abbrev Name := List Ident

/-- What a placeholder is written as. Only anonymous ones count. While a statement is sealed those
of the input carry an ordinal in `ν`; a statement that is read or written has none, so `ν` is empty
for it. -/
inductive Mark (ν : Type := Empty) where
  | anonymous
  | numbered (ordinal : ν)
  | named (text : String)
deriving DecidableEq, Repr

inductive Value (ν : Type := Empty) where
  | number (text : String) (long : Bool)
  | string (text : String)
  | doubleQuoted (text : String)
  | verbatim (text : String)
  | boolean (value : Bool)
  | null
  | placeholder (mark : Mark ν)
deriving DecidableEq, Repr

inductive UnaryOp where
  | not
  | minus
  | plus
  | other (text : String)
deriving DecidableEq, Repr

inductive BinaryOp where
  | or
  | and
  | xor
  | equal
  | notEqual
  | less
  | lessEqual
  | greater
  | greaterEqual
  | plus
  | minus
  | times
  | divide
  | modulo
  | concat
  | other (text : String)
deriving DecidableEq, Repr

inductive PatternKind where
  | like
  | caseless
  | similar
deriving DecidableEq, Repr

inductive Quantifier where
  | all
  | distinct
deriving DecidableEq, Repr

/-- Part of a frame: fixed text, or the place of the operand with that index. -/
inductive Piece where
  | text (text : String)
  | operand (index : Nat)
deriving DecidableEq, Repr

structure TableAlias where
  explicit : Bool
  name : Ident
  columns : List Ident
deriving DecidableEq, Repr

inductive JoinKind where
  | plain
  | inner
  | left
  | leftOuter
  | right
  | rightOuter
  | full
  | cross
  | straight
  | leftSemi
  | rightSemi
  | leftAnti
  | rightAnti
  | semi
  | anti
deriving DecidableEq, Repr

inductive SetOp where
  | union
  | except
  | minus
  | intersect
deriving DecidableEq, Repr

inductive SetQuantifier where
  | none
  | all
  | distinct
  | byName
  | allByName
  | distinctByName
deriving DecidableEq, Repr

/-- Where the sources stand: behind the projection, before it, or alone. -/
inductive SelectOrder where
  | standard
  | sourcesFirst
  | sourcesOnly
deriving DecidableEq, Repr

inductive Target where
  | column (name : Name)
  | tuple (names : List Name)
deriving DecidableEq, Repr

/-- The words between INSERT or REPLACE and the table name. -/
structure InsertVerb where
  replace : Bool
  resolution : Option String
  priority : Option String
  ignore : Bool
  overwrite : Bool
  into : Bool
  tableWord : Bool
deriving DecidableEq, Repr

inductive ConflictTarget where
  | any
  | columns (names : List Ident)
  | constraint (name : Name)
deriving DecidableEq, Repr

inductive ConflictRule where
  | none
  | ignore (target : ConflictTarget)
  | update (target : ConflictTarget)
  | duplicateKey
deriving DecidableEq, Repr

mutual

/-- The `clauses` of a call follow its arguments inside the parentheses, and the `tail` follows the
parentheses. The `escape` of a pattern never has an ordinal. -/
inductive Expr (ν : Type := Empty) where
  | column (qualifier : List Ident) (name : Ident)
  | value (value : Value ν)
  | nested (inner : Expr ν)
  | unary (op : UnaryOp) (operand : Expr ν)
  | isNull (negated : Bool) (operand : Expr ν)
  | binary (left : Expr ν) (op : BinaryOp) (right : Expr ν)
  | pattern (kind : PatternKind) (negated : Bool) (subject pattern : Expr ν)
    (escape : Option Value)
  | inList (negated : Bool) (subject : Expr ν) (items : List (Expr ν))
  | inQuery (negated : Bool) (subject : Expr ν) (query : Query ν)
  | call (name : Name) (quantifier : Option Quantifier) (args clauses tail : List (Expr ν))
  | argument (name : Ident) (arrow : String) (value : Expr ν)
  | star (qualifier : List Ident)
  | existence (negated : Bool) (query : Query ν)
  | subquery (query : Query ν)
  | framed (frame : List Piece) (operands : List (Expr ν))

structure SelectItem (ν : Type := Empty) where
  expr : Expr ν
  label : Option Ident

structure Assignment (ν : Type := Empty) where
  target : Target
  value : Expr ν

inductive TableFactor (ν : Type := Empty) where
  | table (name : Name) (isCall : Bool) (args : List (Expr ν)) (label : Option TableAlias)
  | derived (lateral : Bool) (query : Query ν) (label : Option TableAlias)
  | nested (item : FromItem ν) (label : Option TableAlias)

structure Join (ν : Type := Empty) where
  kind : JoinKind
  natural : Bool
  relation : TableFactor ν
  condition : Option (Expr ν)
  shared : List Name

structure FromItem (ν : Type := Empty) where
  relation : TableFactor ν
  joins : List (Join ν)

/-- `quantifiers` stand before the projection and `clauses` behind the filter. -/
structure Select (ν : Type := Empty) where
  order : SelectOrder
  quantifiers : List (Expr ν)
  projection : List (SelectItem ν)
  sources : List (FromItem ν)
  filter : Option (Expr ν)
  clauses : List (Expr ν)

inductive SetExpr (ν : Type := Empty) where
  | select (select : Select ν)
  | query (query : Query ν)
  | operation (op : SetOp) (quantifier : SetQuantifier) (left right : SetExpr ν)
  | values (rowWord : Bool) (rows : List (List (Expr ν)))
  | insert (insert : Insert ν)
  | update (update : Update ν)
  | delete (delete : Delete ν)

structure Cte (ν : Type := Empty) where
  name : Ident
  columns : List Ident
  materialized : Option Bool
  query : Query ν

structure Query (ν : Type := Empty) where
  recursive : Bool
  ctes : List (Cte ν)
  body : SetExpr ν
  clauses : List (Expr ν)

/-- `rowAlias` names the written row in the conflict rule, to which `updates` and `updateFilter`
belong. -/
structure Insert (ν : Type := Empty) where
  verb : InsertVerb
  table : Name
  label : Option Ident
  columns : List Ident
  source : Option (Query ν)
  assignments : List (Assignment ν)
  rowAlias : Option TableAlias
  conflict : ConflictRule
  updates : List (Assignment ν)
  updateFilter : Option (Expr ν)
  clauses : List (Expr ν)

structure Update (ν : Type := Empty) where
  resolution : Option String
  target : FromItem ν
  sourcesFirst : Bool
  assignments : List (Assignment ν)
  sources : List (FromItem ν)
  filter : Option (Expr ν)
  clauses : List (Expr ν)

structure Delete (ν : Type := Empty) where
  targets : List Name
  fromWord : Bool
  sources : List (FromItem ν)
  usingSources : List (FromItem ν)
  filter : Option (Expr ν)
  clauses : List (Expr ν)

end

instance : Inhabited Expr := ⟨.value .null⟩

/-- Statements other than the four that read or write rows are kept as a frame, the tables they
name and the query they end in. -/
inductive Statement (ν : Type := Empty) where
  | query (query : Query ν)
  | insert (insert : Insert ν)
  | update (update : Update ν)
  | delete (delete : Delete ν)
  | explain (words : String) (statement : Statement ν)
  | other (tables : List Name) (frame : List Piece) (operands : List (Expr ν))
    (query : Option (Query ν))

variable {ν μ : Type}

def Value.remark (mark : ν → Mark μ) : Value ν → Value μ
  | .number text long => .number text long
  | .string text => .string text
  | .doubleQuoted text => .doubleQuoted text
  | .verbatim text => .verbatim text
  | .boolean value => .boolean value
  | .null => .null
  | .placeholder .anonymous => .placeholder .anonymous
  | .placeholder (.numbered ordinal) => .placeholder (mark ordinal)
  | .placeholder (.named text) => .placeholder (.named text)

def Expr.words (text : String) : Expr ν := .framed [.text text] []

def Expr.anonymous : Expr ν := .value (.placeholder .anonymous)

def Expr.columnName? : Expr ν → Option Ident
  | .column _ name => some name
  | _ => none

/-- The same column reference with another name; qualifier and quote stay. -/
def Expr.renameColumn (text : String) : Expr ν → Expr ν
  | .column qualifier name => .column qualifier { name with text := text }
  | e => e

end SealedColumns.Sql

import SealedColumns.Config
import SealedColumns.Invocation
import SealedColumns.Registry
import SealedColumns.Rows
import SealedColumns.Seal.Statement
import SealedColumns.Sql.Text

/-!
The two calls around the execution of a statement: `prepare` seals the statement, or hands it back
as it was, and `fetch` decrypts what the execution gave.
-/
namespace SealedColumns

/-- There is a handler exactly when the configuration is enabled. -/
structure Interceptor where
  handler : Option Handler
  options : SealOptions
  idHeads : List String
  catalog : Catalog
  camelCase : Bool
  dialect : Sql.Dialect

/-- The statement to execute, and what `fetch` has to be given afterwards. -/
structure Prepared where
  bound : BoundStatement
  invocation : Invocation
  isSealed : Bool

namespace Interceptor

def assemble (c : Config) (handler : Option Handler) : Except ConfigFault Interceptor := do
  let dialect ← Sql.Dialect.ofName c.dialect
  return ⟨handler, ⟨c.overwrite, c.writeSource⟩, c.idHeads, c.catalog, c.camelCase, dialect⟩

def openingLog (c : Config) : List Event :=
  if c.enabled && c.idHeads.isEmpty then [.noIdHeads, .configured] else [.configured]

def handlerOf (c : Config) (r : Registry) : Except ConfigFault (Option Handler) := do
  match c.enabled, c.handlerClass with
  | true, some name => return some (← r.build name c.handlerOptions)
  | _, _ => return none

def ofConfig (c : Config) (r : Registry) : Except ConfigFault Interceptor := do
  c.validate
  assemble c (← handlerOf c r)

/-- Takes a handler that is there already; the handler members of the configuration do not
matter. -/
def ofHandler (c : Config) (handler : Handler) : Except ConfigFault Interceptor := do
  c.validateColumns
  assemble c (if c.enabled then some handler else none)

def isEnabled (i : Interceptor) : Bool := i.handler.isSome

def matchesId (i : Interceptor) (id : String) : Bool :=
  i.idHeads.any fun head => Text.startsWith head id

/-- Whether a statement gets as far as being parsed. -/
def admits (i : Interceptor) (statement : MappedStatement) : Bool :=
  i.isEnabled && i.matchesId statement.id && statement.kind.isSealable

def pass (statement : MappedStatement) (bound : BoundStatement) : Prepared :=
  ⟨bound, .passing statement.id, false⟩

/-- Parses and seals a statement; nothing if it touches no configured table. -/
def sealText (i : Interceptor) (handler : Handler) (statement : MappedStatement)
    (bound : BoundStatement) (supply : Supply) :
    Except Error (Option Sealed) × List Event × Supply :=
  match Sql.Statement.parse i.dialect bound.sql with
  | .error e => (.error e, [], supply)
  | .ok tree =>
    let active := ActiveColumns.resolve tree i.catalog
    if active.isEmpty then (.ok none, [], supply)
    else
      let (result, log, supply) :=
        sealBound active handler i.options statement.resultMaps bound tree supply
      (result.map some, log, supply)

/-- Never fails: a statement that cannot be sealed is passed on unchanged. -/
def prepare (i : Interceptor) (statement : MappedStatement) (bound : BoundStatement)
    (supply : Supply) : Prepared × List Event × Supply :=
  match i.handler with
  | none => (pass statement bound, [], supply)
  | some handler =>
    if !i.matchesId statement.id then (pass statement bound, [.idNotMatched], supply)
    else if !statement.kind.isSealable then (pass statement bound, [.kindPassed], supply)
    else
      let (result, log, supply) := i.sealText handler statement bound supply
      match result with
      | .ok (some s) =>
        (⟨s.bound, ⟨statement.id, s.aliases⟩, true⟩, log ++ [.statementSealed], supply)
      | .ok none => (pass statement bound, log ++ [.noTable], supply)
      | .error _ => (pass statement bound, log ++ [.sealingFailed], supply)

def fetch (i : Interceptor) (invocation : Invocation) (result : QueryResult) :
    Rows.Outcome QueryResult :=
  match i.handler with
  | none => ⟨result, .none, []⟩
  | some handler =>
    let outcome := Rows.decrypt handler i.camelCase invocation.aliases result
    if outcome.report.failed = 0 then outcome
    else { outcome with log := outcome.log ++ [.valuesKept] }

/-- Both calls around an execution; only the execution can fail. -/
def intercept {ε : Type} (i : Interceptor) (statement : MappedStatement) (bound : BoundStatement)
    (execute : BoundStatement → Except ε QueryResult) (supply : Supply) :
    Except ε QueryResult × List Event × Supply :=
  let (prepared, log, supply) := i.prepare statement bound supply
  match execute prepared.bound with
  | .error e => (.error e, log, supply)
  | .ok result =>
    let outcome := i.fetch prepared.invocation result
    (.ok outcome.value, log ++ outcome.log, supply)

end Interceptor

end SealedColumns

import SealedColumns.Distinct
import SealedColumns.Event
import SealedColumns.Handler
import SealedColumns.Json.Writer
import SealedColumns.Property
import SealedColumns.Statement

/-!
Decrypting the rows of a result. A value that cannot be decrypted is kept and counted, and the
others go on.
-/
namespace SealedColumns

structure DecryptReport where
  decrypted : Nat
  failed : Nat
deriving DecidableEq, Repr

namespace DecryptReport

def none : DecryptReport := ⟨0, 0⟩

def add (a b : DecryptReport) : DecryptReport := ⟨a.decrypted + b.decrypted, a.failed + b.failed⟩

end DecryptReport

namespace Rows

def dropUnderscores (s : String) : String := String.ofList (s.toList.filter (· != '_'))

/-- Whether a key holds a property, letter case aside; with `camelCase` also one whose underscores
are left out. -/
def holds (camelCase : Bool) (property key : String) : Bool :=
  Text.equalIgnoringCase key property ||
    (camelCase && Text.equalIgnoringCase key (dropUnderscores property))

/-- The key of a property in a row: the property itself if it is there, or else the first key that
holds it. -/
def keyOf? (camelCase : Bool) (property : String) (row : Members Json) : Option String :=
  if row.contains property then some property
  else row.keys.find? (holds camelCase property)

def isPath (property : String) : Bool := property.toList.any fun c => c == '.' || c == '['

def cell? (camelCase : Bool) (property : String) (row : Json) : Option Json :=
  if isPath property then Property.get? row property
  else
    match row with
    | .object members => (keyOf? camelCase property members).bind (Members.get? · members)
    | _ => none

def setCell (camelCase : Bool) (property : String) (value row : Json) : Json :=
  if isPath property then (Property.update? row property value).getD row
  else
    match row with
    | .object members =>
      match keyOf? camelCase property members with
      | some key => .object (Members.replace key value members)
      | none => row
    | _ => row

/-- The text of a cell that is to be decrypted; null has none. -/
def cipherText? : Json → Option String
  | .null => none
  | .string s => some s
  | value => some value.compact

structure Outcome (α : Type) where
  value : α
  report : DecryptReport
  log : List Event

def decryptCell (handler : Handler) (camelCase : Bool) (row : Json) (property : String) :
    Outcome Json :=
  match (cell? camelCase property row).bind cipherText? with
  | none => ⟨row, .none, []⟩
  | some cipher =>
    match handler.decrypt cipher with
    | .ok plain => ⟨setCell camelCase property (.string plain) row, ⟨1, 0⟩, []⟩
    | .error _ => ⟨row, ⟨0, 1⟩, [.valueKept]⟩

def decryptRow (handler : Handler) (camelCase : Bool) : List String → Json → Outcome Json
  | [], row => ⟨row, .none, []⟩
  | property :: rest, row =>
    let first := decryptCell handler camelCase row property
    let others := decryptRow handler camelCase rest first.value
    ⟨others.value, first.report.add others.report, first.log ++ others.log⟩

def decryptRows (handler : Handler) (camelCase : Bool) (properties : List String) :
    List Json → Outcome (List Json)
  | [] => ⟨[], .none, []⟩
  | row :: rows =>
    let first := decryptRow handler camelCase properties row
    let others := decryptRows handler camelCase properties rows
    ⟨first.value :: others.value, first.report.add others.report, first.log ++ others.log⟩

/-- The properties to decrypt, each of them once, in rising order. -/
def propertiesOf (aliases : Members String) : List String :=
  (distinct aliases.values).mergeSort fun a b => decide (a ≤ b)

/-- Only rows are decrypted; other results are left as they are. -/
def decrypt (handler : Handler) (camelCase : Bool) (aliases : Members String) :
    QueryResult → Outcome QueryResult
  | .rows rows =>
    let outcome := decryptRows handler camelCase (propertiesOf aliases) rows
    ⟨.rows outcome.value, outcome.report, outcome.log⟩
  | result => ⟨result, .none, []⟩

end Rows

end SealedColumns

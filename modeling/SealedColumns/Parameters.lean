import SealedColumns.Property
import SealedColumns.Statement

/-!
The parameters of a statement while it is sealed. Every mapping sits in a slot that remembers
which mapping of the input it is or stands for; slots are found by that ordinal or by property.
-/
namespace SealedColumns

structure Slot where
  mapping : ParameterMapping
  origin : Option Nat
deriving DecidableEq, Repr

inductive Anchor where
  | property (name : String)
  | origin (ordinal : Nat)
deriving DecidableEq, Repr

structure Parameters where
  slots : List Slot
  object : Json
  additional : Members Json

namespace Parameters

def ofBound (bound : BoundStatement) : Parameters :=
  ⟨bound.mappings.zipIdx.map fun (mapping, ordinal) => ⟨mapping, some ordinal⟩, bound.object,
    bound.additional⟩

def mappings (p : Parameters) : List ParameterMapping := p.slots.map Slot.mapping

def origins (p : Parameters) : List (Option Nat) := p.slots.map Slot.origin

def length (p : Parameters) : Nat := p.slots.length

def Anchor.designates (anchor : Anchor) (slot : Slot) : Bool :=
  match anchor with
  | .property name => slot.mapping.property == name
  | .origin ordinal => slot.origin == some ordinal

def position? (p : Parameters) (anchor : Anchor) : Option Nat :=
  p.slots.findIdx? (Anchor.designates anchor)

def add (p : Parameters) (property : String) (value : Json) : Parameters :=
  { p with
    slots := p.slots ++ [⟨ParameterMapping.text property, none⟩]
    additional := p.additional.insert property value }

/-- Inserts a new text parameter `offset` places behind the anchor, or at the end if that is
nearer. -/
def addAfter? (p : Parameters) (property : String) (value : Json) (anchor : Anchor)
    (offset : Nat) : Option Parameters := do
  let position ← p.position? anchor
  let place := min (position + offset + 1) p.slots.length
  some { p with
    slots := p.slots.insertIdx place ⟨ParameterMapping.text property, none⟩
    additional := p.additional.insert property value }

def replace? (p : Parameters) (property : String) (value : Option Json) (anchor : Anchor) :
    Option Parameters := do
  let position ← p.position? anchor
  let value ← value
  some { p with
    slots := p.slots.modify position fun slot =>
      { slot with mapping := ParameterMapping.text property }
    additional := p.additional.insert property value }

def remove? (p : Parameters) (anchor : Anchor) : Option (ParameterMapping × Parameters) := do
  let position ← p.position? anchor
  let slot ← p.slots[position]?
  some (slot.mapping, { p with slots := p.slots.eraseIdx position })

/-- Additional parameters come first, by the root of the path; then a scalar parameter object as a
whole; then the path in the parameter object. An output parameter has no value. -/
def valueOf (p : Parameters) (mapping : ParameterMapping) : Json :=
  if mapping.mode = .output then .null
  else
    let (root, rest) := Property.splitRoot mapping.property
    let found := match p.additional.get? root with
      | some value => Property.get? value rest
      | none =>
        if p.object.isScalar then some p.object else Property.get? p.object mapping.property
    found.getD .null

def setValueOf? (p : Parameters) (mapping : ParameterMapping) (value : Json) :
    Option Parameters :=
  let (root, rest) := Property.splitRoot mapping.property
  match p.additional.get? root with
  | some old => do
    let new ← Property.set? old rest value
    some { p with additional := p.additional.replace root new }
  | none =>
    if p.object.isScalar then some { p with object := value }
    else do
      let new ← Property.set? p.object mapping.property value
      some { p with object := new }

def toBound (p : Parameters) (sql : String) : BoundStatement :=
  ⟨sql, p.mappings, p.object, p.additional⟩

end Parameters

end SealedColumns

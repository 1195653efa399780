import SealedColumns.Proofs.Target

/-!
What is left of the values that an INSERT or UPDATE gives to the source columns of its target. If
the source columns are not kept, sealing takes them out of everything that it looks into: the
column list with its rows, and the assignments to single columns.
-/
namespace SealedColumns

namespace Sql

variable {ν : Type}

/-- The columns that a target names. -/
def Target.columns : Target → List Ident
  | .column name => name.getLast?.toList
  | .tuple names => names.filterMap List.getLast?

def Target.Names (source : Ident → Prop) (target : Target) : Prop :=
  ∃ ident ∈ target.columns, source ident

def Assignment.write (a : Assignment ν) : Target × Expr ν := (a.target, a.value)

def rowWrites (columns : List Ident) (row : List (Expr ν)) : List (Target × Expr ν) :=
  (columns.zip row).map fun w => (.ofIdent w.1, w.2)

def Insert.writes (x : Insert Nat) : List (Target × Expr Nat) :=
  ((Sealing.rowsOf? x.source).getD []).flatMap (rowWrites x.columns) ++
    x.assignments.map Assignment.write

/-- What a statement writes, those of a conflict rule apart: targets with their values. -/
def Statement.writes : Statement Nat → List (Target × Expr Nat)
  | .insert x => x.writes
  | .update x => x.assignments.map Assignment.write
  | _ => []

/-- The targets of the same, those without a row of values included. -/
def Statement.direct : Statement Nat → List Target
  | .insert x => x.columns.map Target.ofIdent ++ x.assignments.map Assignment.target
  | .update x => x.assignments.map Assignment.target
  | _ => []

theorem Target.column?_eq_some {target : Target} {ident : Ident} :
    target.column? = some ident ↔ ∃ name, target = .column name ∧ name.getLast? = some ident := by
  cases target <;> simp [Target.column?]

theorem Target.columns_of_column? {target : Target} {ident : Ident}
    (column : target.column? = some ident) : target.columns = [ident] := by
  obtain ⟨name, rfl, last⟩ := Target.column?_eq_some.mp column
  simp [Target.columns, last]

theorem getLast?_renameLast (text : String) (name : Name) :
    (renameLast text name).getLast? =
      name.getLast?.map fun ident => { ident with text := text } := by
  induction name with
  | nil => rfl
  | cons ident rest ih =>
    cases rest with
    | nil => rfl
    | cons next rest =>
      have longer : renameLast text (next :: rest) ≠ [] := by cases rest <;> simp [renameLast]
      rw [renameLast, List.getLast?_cons_of_ne_nil longer, ih, List.getLast?_cons_cons]
      simp

theorem Target.column?_rename {target : Target} {ident : Ident} (text : String)
    (column : target.column? = some ident) :
    (target.rename text).column? = some { ident with text := text } := by
  obtain ⟨name, rfl, last⟩ := Target.column?_eq_some.mp column
  simp [Target.rename, Target.column?, getLast?_renameLast, last]

end Sql

open Sql

/-- A placeholder of the input, a literal or NULL. -/
inductive Given : Expr Nat → Prop where
  | placeholder (n : Nat) : Given (.value (.placeholder (.numbered n)))
  | number (text : String) (long : Bool) : Given (.value (.number text long))
  | string (text : String) : Given (.value (.string text))
  | null : Given (.value .null)

theorem Given.isSome {e : Expr Nat} (given : Given e) : (Operand.ofExpr? e).isSome = true := by
  cases given <;> rfl

/-- Whatever is written to a source column can be sealed, and is written to that column alone. -/
def ValuesGiven (source : Ident → Prop) (writes : List (Target × Expr Nat)) : Prop :=
  ∀ w ∈ writes, w.1.Names source → (∃ ident, w.1.column? = some ident) ∧ Given w.2

def ActiveColumns.DerivesNone (active : ActiveColumns) (targets : List Target) : Prop :=
  ∀ target ∈ targets, ∀ ident ∈ target.columns, active.isDerived ident = false

instance (active : ActiveColumns) (targets : List Target) :
    Decidable (active.DerivesNone targets) :=
  inferInstanceAs (Decidable (∀ target ∈ targets, ∀ ident ∈ target.columns, _))

/-- A write of the emitted tree: one to another column, as it was, or one of the two that a write
gives way to. -/
inductive WriteSealed (g : Sealing) (source : Ident → Prop)
    (stands : Ident → SensitiveColumn → Prop) (writes : List (Target × Expr Nat)) :
    Target × Expr Nat → Prop where
  | kept {w : Target × Expr Nat} : w ∈ writes → ¬ w.1.Names source →
      WriteSealed g source stands writes w
  | target {target : Target} {value cipher index : Expr Nat} {ident : Ident} {c : SensitiveColumn} :
      (target, value) ∈ writes → target.column? = some ident → stands ident c →
        g.ValuePair value cipher index →
          WriteSealed g source stands writes (target.rename c.target, cipher)
  | index {target : Target} {value cipher index : Expr Nat} {ident : Ident} {c : SensitiveColumn} :
      (target, value) ∈ writes → target.column? = some ident → stands ident c →
        g.ValuePair value cipher index →
          WriteSealed g source stands writes (target.rename c.index, index)

theorem exists_of_mem_right {α β : Type} {related : α → β → Prop} {as : List α} {bs : List β}
    (all : List.Forall₂ related as bs) {b : β} (member : b ∈ bs) : ∃ a ∈ as, related a b := by
  obtain ⟨i, inside, rfl⟩ := List.mem_iff_getElem.mp member
  have inside' : i < as.length := all.length_eq ▸ inside
  exact ⟨as[i], List.getElem_mem inside', List.Forall₂.get all inside' inside⟩

theorem WriteSealed.imp {g : Sealing} {source : Ident → Prop}
    {stands stands' : Ident → SensitiveColumn → Prop} {writes writes' : List (Target × Expr Nat)}
    (weaker : ∀ ident c, stands ident c → stands' ident c) (wider : ∀ w ∈ writes, w ∈ writes')
    {w : Target × Expr Nat} (sealed : WriteSealed g source stands writes w) :
    WriteSealed g source stands' writes' w := by
  cases sealed with
  | kept member other => exact .kept (wider _ member) other
  | target member column stand pair =>
    exact .target (wider _ member) column (weaker _ _ stand) pair
  | index member column stand pair =>
    exact .index (wider _ member) column (weaker _ _ stand) pair

namespace Sealing

/-- The source columns have entries, and no entry derives a column with the name of one. -/
structure Covers (g : Sealing) (source : Ident → Prop) : Prop where
  entry : ∀ ident, source ident → ∃ c, g.WriteStands ident c
  apart : ∀ ident c, g.WriteStands ident c → ∀ column, source column →
    c.derives column.normalized = false

variable {g : Sealing} {source : Ident → Prop} {writes : List (Target × Expr Nat)}

theorem assigned?_eq (a : Assignment Nat) :
    g.assigned? a = a.target.column?.bind g.active.get? := by
  unfold assigned?
  cases a.target <;> rfl

theorem isDerivedTarget_eq (a : Assignment Nat) :
    g.isDerivedTarget a = a.target.column?.any g.active.isDerived := by
  unfold isDerivedTarget
  cases a.target <;> rfl

section Assignments

variable {as as' : List (Assignment Nat)}

/-- An assignment to a source column has a slot. -/
theorem Covers.assignmentSlot (covers : g.Covers source)
    (given : ValuesGiven source (as.map Assignment.write)) {a : Assignment Nat} (listed : a ∈ as)
    (named : a.target.Names source) : (g.assignmentSlot? a).isSome = true := by
  obtain ⟨⟨ident, column⟩, value⟩ := given a.write (List.mem_map_of_mem listed) named
  rw [Assignment.write] at column value
  obtain ⟨_, member, here⟩ := named
  rw [Target.columns_of_column? column, List.mem_singleton] at member
  obtain ⟨c, stands⟩ := covers.entry ident (member ▸ here)
  have assigned : g.assigned? a = some c := by
    rw [assigned?_eq, column]
    exact stands
  simp [assignmentSlot?, assigned, value.isSome]

end Assignments

section Rows

variable {columns : List Ident} {rows : List (List (Expr Nat))}

/-- Every row is as wide as the column list, and its values for source columns can be sealed. -/
structure RowsGiven (source : Ident → Prop) (columns : List Ident)
    (rows : List (List (Expr Nat))) : Prop where
  wide : ∀ row ∈ rows, row.length = columns.length
  values : ∀ row ∈ rows, ∀ w ∈ columns.zip row, source w.1 → Given w.2

/-- A source column in the list has a slot. -/
theorem Covers.columnSlot (covers : g.Covers source) (given : RowsGiven source columns rows)
    {ident : Ident} {slot : Option SensitiveColumn}
    (member : (ident, slot) ∈ columns.zip (g.columnSlots columns rows)) (here : source ident) :
    slot.isSome = true := by
  rw [zip_columnSlots] at member
  obtain ⟨⟨ident, position⟩, listed, same⟩ := List.mem_map.mp member
  obtain ⟨rfl, rfl⟩ := Prod.mk.inj same
  have column : columns[position]? = some ident := List.mem_zipIdx_iff_getElem?.mp listed
  have supported : isSupportedAt rows position = true := by
    refine List.all_eq_true.mpr fun row member => ?_
    have inside : position < row.length := by
      rw [given.wide row member]
      exact (List.getElem?_eq_some_iff.mp column).1
    have value : row[position]? = some row[position] := List.getElem?_eq_getElem inside
    have pair : (ident, row[position]) ∈ columns.zip row :=
      List.mem_of_getElem? (List.getElem?_zip_eq_some.mpr ⟨column, value⟩)
    simpa [value] using (given.values row member _ pair here).isSome
  obtain ⟨c, stands⟩ := covers.entry ident here
  rw [WriteStands] at stands
  simp [columnSlot?, stands, supported]

end Rows

section Written

variable {n : Nat} {target : Target}

end Written

end Sealing

/-- A name of a source column of the target. -/
def SourceOf (catalog : Catalog) (target : Name) (ident : Ident) : Prop :=
  ∃ c, OwnEntry catalog target ident c

namespace Sample

variable {ν : Type}

def number (text : String) : Expr ν := .value (.number text false)

def literals : List (Expr ν) := [number "1", .value (.string "x")]

def insertion (columns : List String) (body : SetExpr ν) (conflict : ConflictRule)
    (updates : List (Assignment ν)) : Insert ν :=
  ⟨⟨false, none, none, false, false, true, false⟩, [.bare "users"], none, columns.map Ident.bare,
    some ⟨false, [], body, []⟩, [], none, conflict, updates, none, []⟩

/-- A pass over a statement that writes to no derived column, and that emits a tree which writes to
a source column of `users`. -/
structure Leaves (columns : List SensitiveColumn) (t : Statement) (tree : Statement Nat)
    (sql : String) : Prop where
  underived : (ActiveColumns.resolve t (.ofColumns columns)).DerivesNone t.withoutCtes.targets
  emits : Sealing.Emits ⟨.resolve t (.ofColumns columns), handler, ⟨true, false⟩, [], []⟩ noInput
    supply t tree ⟨{ noInput with sql := sql }, []⟩
  succeeded : (sealBound (.resolve t (.ofColumns columns)) handler ⟨true, false⟩ [] noInput t
    supply).1 = .ok ⟨{ noInput with sql := sql }, []⟩
  names : ∃ target ∈ tree.withoutCtes.targets,
    target.Names (SourceOf (.ofColumns columns) [.bare "users"])

end Sample

end SealedColumns

import SealedColumns.Proofs.Emission
import SealedColumns.Proofs.Entries
import SealedColumns.Proofs.References

/-!
Which entries an INSERT, UPDATE or DELETE of a single table is sealed by. A name that is written or
filtered by stands for the entry of the first table that has one, so for the target's own entry
where there is one; but where the target has none, the entry of another table in the statement is
taken.
-/
namespace SealedColumns

namespace Sql

variable {ν : Type}

/-- The column that a target names, unless it is a tuple. -/
def Target.column? : Target → Option Ident
  | .column name => name.getLast?
  | .tuple _ => none

def Target.ofIdent (ident : Ident) : Target := .column [ident]

def Insert.targets (x : Insert ν) : List Target :=
  x.columns.map Target.ofIdent ++
    (x.assignments.map Assignment.target ++ x.updates.map Assignment.target)

/-- All that a statement writes to, in order: columns, assignments and those of a conflict rule. -/
def Statement.targets : Statement ν → List Target
  | .insert x => x.targets
  | .update x => x.assignments.map Assignment.target
  | _ => []

/-- The INSERT, UPDATE or DELETE that stands in the body of a query. -/
def SetExpr.write? : SetExpr ν → Option (Statement ν)
  | .insert x => some (.insert x)
  | .update x => some (.update x)
  | .delete x => some (.delete x)
  | .query ⟨_, _, body, _⟩ => body.write?
  | _ => none

/-- A statement without the WITH that introduces it. -/
def Statement.withoutCtes : Statement ν → Statement ν
  | .query ⟨recursive, ctes, body, clauses⟩ =>
    body.write?.getD (.query ⟨recursive, ctes, body, clauses⟩)
  | t => t

/-- What stands in front of the FROM of a DELETE is the table behind it: by its alias, or by the end
of its name. -/
def Denotes (table : Name) (label : Option TableAlias) (written : Name) : Prop :=
  (∃ l ∈ label, written.map Ident.normalized = [l.name.normalized]) ∨
    written ≠ [] ∧ written.map Ident.normalized <:+ table.map Ident.normalized

/-- An INSERT, or an UPDATE or DELETE of a single table, without join, FROM or USING; the tables in
its subqueries do not count. -/
inductive Statement.Sole : Statement ν → Name → Prop where
  | insert (x : Insert ν) : Sole (.insert x) x.table
  | update {x : Update ν} {name : Name} {isCall : Bool} {args : List (Expr ν)}
      {label : Option TableAlias} : x.target = ⟨.table name isCall args label, []⟩ →
        x.sources = [] → Sole (.update x) name
  | delete {x : Delete ν} {name : Name} {isCall : Bool} {args : List (Expr ν)}
      {label : Option TableAlias} : x.sources = [⟨.table name isCall args label, []⟩] →
        x.usingSources = [] → (∀ written ∈ x.targets, Denotes name label written) →
        Sole (.delete x) name
  | introduced {recursive : Bool} {ctes : List (Cte ν)} {body : SetExpr ν}
      {clauses : List (Expr ν)} {t : Statement ν} {name : Name} : body.write? = some t →
        Sole t name → Sole (.query ⟨recursive, ctes, body, clauses⟩) name

/-- The single table is mentioned first, unless a WITH is in front. -/
theorem Statement.Sole.first {t : Statement} {target : Name} (sole : t.Sole target) :
    (∃ q, t = .query q) ∨ ∃ rest, t.referencedTables = target :: rest := by
  cases sole with
  | insert x => exact .inr ⟨_, rfl⟩
  | @update x _ _ _ _ single _ | @delete x _ _ _ _ single _ _ =>
    cases x
    cases single
    exact .inr (Statement.referencedTables_first (Statement.tableNames_eq _))
  | introduced _ _ => exact .inl ⟨_, rfl⟩

end Sql

open Sql

/-- A target is left, or gives way to the target and index columns of an entry that its name stands
for, behind the target itself if that is kept. -/
inductive TargetsExpanded (keep : Bool) (stands : Ident → SensitiveColumn → Prop) :
    List Target → List Target → Prop where
  | nil : TargetsExpanded keep stands [] []
  | kept {target : Target} {targets targets' : List Target} :
      TargetsExpanded keep stands targets targets' →
        TargetsExpanded keep stands (target :: targets) (target :: targets')
  | pair {target : Target} {ident : Ident} {c : SensitiveColumn} {targets targets' : List Target} :
      target.column? = some ident → stands ident c → TargetsExpanded keep stands targets targets' →
        TargetsExpanded keep stands (target :: targets)
          ((if keep then [target] else []) ++
            target.rename c.target :: target.rename c.index :: targets')

namespace TargetsExpanded

variable {keep : Bool} {stands stands' : Ident → SensitiveColumn → Prop}
  {first first' second second' : List Target}

theorem refl (targets : List Target) : TargetsExpanded keep stands targets targets := by
  induction targets with
  | nil => exact .nil
  | cons target targets ih => exact .kept ih

theorem append (one : TargetsExpanded keep stands first first')
    (two : TargetsExpanded keep stands second second') :
    TargetsExpanded keep stands (first ++ second) (first' ++ second') := by
  induction one with
  | nil => exact two
  | kept _ ih => exact .kept ih
  | pair named stand _ ih =>
    rw [List.cons_append, List.append_assoc]
    exact .pair named stand ih

theorem imp (weaker : ∀ ident c, stands ident c → stands' ident c)
    (expanded : TargetsExpanded keep stands first first') :
    TargetsExpanded keep stands' first first' := by
  induction expanded with
  | nil => exact .nil
  | kept _ ih => exact .kept ih
  | pair named stand _ ih => exact .pair named (weaker _ _ stand) ih

theorem eq_of_none (none : ∀ ident c, ¬ stands ident c)
    (expanded : TargetsExpanded keep stands first first') : first' = first := by
  induction expanded with
  | nil => rfl
  | kept _ ih => rw [ih]
  | pair _ stand _ _ => exact absurd stand (none _ _)

end TargetsExpanded

/-- What a pair of items writes to, next to the item that it stands for. -/
structure PairTargets {α : Type} (stands : Ident → SensitiveColumn → Prop) (named : α → Target)
    (c : SensitiveColumn) (item target index : α) : Prop where
  stands : ∃ ident, (named item).column? = some ident ∧ stands ident c
  target : named target = (named item).rename c.target
  index : named index = (named item).rename c.index

theorem Spliced.targets {α : Type} {stands : Ident → SensitiveColumn → Prop} {named : α → Target}
    {keep : Bool} {pair : SensitiveColumn → α → α → α → Prop}
    {items : List (α × Option SensitiveColumn)} {out : List α}
    (spliced : Spliced keep pair items out)
    (known : ∀ item c, (item, some c) ∈ items → ∀ target index, pair c item target index →
      PairTargets stands named c item target index) :
    TargetsExpanded keep stands (items.map fun x => named x.1) (out.map named) := by
  induction spliced with
  | nil => exact .nil
  | kept _ ih =>
    exact .kept (ih fun item c member => known item c (List.mem_cons_of_mem _ member))
  | pair here _ ih =>
    have rest := ih fun item c member => known item c (List.mem_cons_of_mem _ member)
    obtain ⟨⟨ident, column, stand⟩, target, index⟩ := known _ _ List.mem_cons_self _ _ here
    have expanded : TargetsExpanded keep stands _ _ := .pair column stand rest
    simp only [List.map_append, List.map_cons, target, index]
    cases keep <;> exact expanded

namespace Sealing

variable {g : Sealing}

/-- What a written name stands for: writes have no scope. -/
def WriteStands (g : Sealing) (ident : Ident) (c : SensitiveColumn) : Prop :=
  g.active.get? ident = some c

theorem assignmentSlot?_stands {a : Assignment Nat} {c : SensitiveColumn}
    (slot : g.assignmentSlot? a = some c) :
    ∃ ident, a.target.column? = some ident ∧ g.WriteStands ident c := by
  have assigned := (Option.filter_eq_some_iff.mp slot).1
  unfold assigned? at assigned
  split at assigned
  · rename_i name same
    obtain ⟨ident, last, found⟩ := Option.bind_eq_some_iff.mp assigned
    exact ⟨ident, by rw [same]; exact last, found⟩
  · cases assigned

theorem AssignmentsSealed.targets {as as' : List (Assignment Nat)}
    (run : g.AssignmentsSealed as as') :
    TargetsExpanded g.options.writeSource g.WriteStands (as.map Assignment.target)
      (as'.map Assignment.target) := by
  cases run with
  | derived _ => exact .refl _
  | spliced _ spliced =>
    rw [← List.map_prod_left_eq_zip] at spliced
    have targets : TargetsExpanded g.options.writeSource g.WriteStands
        ((as.map fun a => (a, g.assignmentSlot? a)).map fun x => x.1.target)
        (as'.map Assignment.target) := by
      refine spliced.targets fun a c member t i pair => ?_
      obtain ⟨_, -, same⟩ := List.mem_map.mp member
      obtain ⟨rfl, slot⟩ := Prod.mk.inj same
      exact ⟨assignmentSlot?_stands slot, pair.target, pair.index⟩
    simpa only [List.map_map, Function.comp_def] using targets

theorem zip_columnSlots (columns : List Ident) (rows : List (List (Expr Nat))) :
    columns.zip (g.columnSlots columns rows) =
      columns.zipIdx.map fun x => (x.1, g.columnSlot? rows x.2 x.1) := by
  have zipped := List.zip_map' (f := Prod.fst)
    (g := fun x => g.columnSlot? rows x.2 x.1) (l := columns.zipIdx)
  rwa [List.zipIdx_map_fst] at zipped

theorem columnSlots_stands {columns : List Ident} {rows : List (List (Expr Nat))} {ident : Ident}
    {c : SensitiveColumn} (member : (ident, some c) ∈ columns.zip (g.columnSlots columns rows)) :
    g.WriteStands ident c := by
  rw [zip_columnSlots] at member
  obtain ⟨⟨_, position⟩, -, same⟩ := List.mem_map.mp member
  obtain ⟨rfl, slot⟩ := Prod.mk.inj same
  exact (Option.filter_eq_some_iff.mp slot).1

theorem expandColumns_targets (columns : List Ident) (rows : List (List (Expr Nat))) :
    TargetsExpanded g.options.writeSource g.WriteStands (columns.map Target.ofIdent)
      ((g.expandColumns columns (g.columnSlots columns rows)).map Target.ofIdent) := by
  have expanded : TargetsExpanded g.options.writeSource g.WriteStands
      ((columns.zip (g.columnSlots columns rows)).map fun item => Target.ofIdent item.1)
      ((g.expandColumns columns (g.columnSlots columns rows)).map Target.ofIdent) := by
    refine (expandColumns_spliced _ _).targets fun ident c member t i pair => ?_
    obtain ⟨rfl, rfl⟩ := Prod.mk.inj pair
    exact ⟨⟨ident, rfl, columnSlots_stands member⟩, rfl, rfl⟩
  have names : (columns.zip (g.columnSlots columns rows)).map Prod.fst = columns :=
    List.map_fst_zip (Nat.le_of_eq (length_columnSlots _ _).symm)
  have same := congrArg (List.map Target.ofIdent) names
  rw [List.map_map] at same
  exact same ▸ expanded

theorem InsertSealed.targets {x x' : Insert Nat} (run : g.InsertSealed x x') :
    TargetsExpanded g.options.writeSource g.WriteStands x.targets x'.targets := by
  cases run with
  | assignments _ assignments =>
    exact (TargetsExpanded.refl _).append (assignments.targets.append (.refl _))
  | kept _ _ => exact .refl _
  | @rows rows rows' _ _ _ _ _ => exact (expandColumns_targets x.columns rows).append (.refl _)

theorem TreeSealed.targets {t t' : Statement Nat} (run : g.TreeSealed t t') :
    TargetsExpanded g.options.writeSource g.WriteStands t.targets t'.targets := by
  cases run with
  | insert insert => exact insert.targets
  | update assignments _ => exact assignments.targets
  | _ => exact .refl _

theorem TreeSealed.filter {t t' : Statement Nat} (run : g.TreeSealed t t') :
    FilterRead g.handler (g.Stands []) t.filter t'.filter := by
  cases run with
  | insert insert => cases insert <;> exact .refl _
  | update _ filter => exact filter.read
  | delete filter => exact filter.read
  | _ => exact .refl _

/-- Without a scope, a name is looked up for a filter as it is for a write. -/
theorem Stands.write {r : Reference} {c : SensitiveColumn} (stands : g.Stands [] r c) :
    g.WriteStands r.name c := by
  rcases ActiveColumns.getIn?_eq_some stands.2 with ⟨-, -, inside⟩ | ⟨-, found⟩
  · cases inside
  · exact found

end Sealing

/-- An entry of the target itself. -/
def OwnEntry (catalog : Catalog) (target : Name) (ident : Ident) (c : SensitiveColumn) : Prop :=
  c ∈ catalog.entriesOf target ∧ c.source = ident.normalized

/-- The bodies of queries that hold a write are left as they are. -/
theorem BodySelectwise.write? {projects :
    List (FromItem Nat) → List (SelectItem Nat) → List (SelectItem Nat) → Prop}
    {filters : List (FromItem Nat) → Option (Expr Nat) → Option (Expr Nat) → Prop} :
    ∀ {body body' : SetExpr Nat}, BodySelectwise projects filters body body' →
      body'.write? = body.write?
  | _, _, .select _ _ _ | _, _, .operation _ _ | _, _, .kept _ => rfl
  | _, _, .query (.query _ inner) => by simp only [SetExpr.write?, inner.write?]

namespace Sealing

variable {g : Sealing}

end Sealing

namespace Sample

def noInput : BoundStatement := ⟨"", [], .null, []⟩

end Sample

end SealedColumns

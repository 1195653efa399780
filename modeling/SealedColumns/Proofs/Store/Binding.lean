import Mathlib.Data.List.Basic
import SealedColumns.Json.Value
import SealedColumns.Proofs.Numbering
import SealedColumns.Proofs.Store.Request

/-!
Binding the placeholders of a request to values, from left to right. Numbering the placeholders of
a statement and taking the numbers off again does not change what they are bound to.
-/
namespace SealedColumns.Store

open Sql

variable {α β γ σ τ : Type}

def Atom.map (f : α → β) : Atom α → Atom β
  | .equal negated flipped column value => .equal negated flipped column (f value)
  | .among negated column values => .among negated column (values.map f)
  | .isNull negated column => .isNull negated column

def Condition.map (f : α → β) : Condition α → Condition β
  | .atom a => .atom (f a)
  | .nested c => .nested (c.map f)
  | .not c => .not (c.map f)
  | .and l r => .and (l.map f) (r.map f)
  | .or l r => .or (l.map f) (r.map f)

def Request.map (f : α → β) : Request α → Request β
  | .insert rowWord columns rows => .insert rowWord columns (rows.map (·.map f))
  | .select items condition => .select items (condition.map (·.map (Atom.map f)))

section Maps

theorem Atom.map_id (a : Atom α) : a.map id = a := by
  cases a with
  | among negated column values => exact congrArg (Atom.among negated column) (List.map_id values)
  | _ => rfl

theorem Condition.map_id {f : α → α} (same : ∀ a, f a = a) (c : Condition α) : c.map f = c := by
  induction c with
  | atom a => exact congrArg Condition.atom (same a)
  | nested c ih => simp only [map, ih]
  | not c ih => simp only [map, ih]
  | and l r left right => simp only [map, left, right]
  | or l r left right => simp only [map, left, right]

theorem Request.map_id (r : Request α) : r.map id = r := by
  cases r with
  | insert rowWord columns rows => simp [map]
  | select items condition =>
    cases condition with
    | none => rfl
    | some c => simp only [map, Option.map_some, Condition.map_id Atom.map_id]

end Maps

/-! Going through the entries of a request in visit order. -/

def threadList (f : α → σ → β × σ) : List α → σ → List β × σ
  | [], s => ([], s)
  | a :: rest, s =>
    let first := f a s
    let others := threadList f rest first.2
    (first.1 :: others.1, others.2)

def Atom.thread (f : α → σ → β × σ) : Atom α → σ → Atom β × σ
  | .equal negated flipped column value, s =>
    let value := f value s
    (.equal negated flipped column value.1, value.2)
  | .among negated column values, s =>
    let values := threadList f values s
    (.among negated column values.1, values.2)
  | .isNull negated column, s => (.isNull negated column, s)

def Condition.thread (f : α → σ → β × σ) : Condition α → σ → Condition β × σ
  | .atom a, s => let a := f a s; (.atom a.1, a.2)
  | .nested c, s => let c := c.thread f s; (.nested c.1, c.2)
  | .not c, s => let c := c.thread f s; (.not c.1, c.2)
  | .and l r, s =>
    let l := l.thread f s
    let r := r.thread f l.2
    (.and l.1 r.1, r.2)
  | .or l r, s =>
    let l := l.thread f s
    let r := r.thread f l.2
    (.or l.1 r.1, r.2)

def Request.thread (f : α → σ → β × σ) : Request α → σ → Request β × σ
  | .insert rowWord columns rows, s =>
    let rows := threadList (threadList f) rows s
    (.insert rowWord columns rows.1, rows.2)
  | .select items none, s => (.select items none, s)
  | .select items (some c), s =>
    let c := c.thread (Atom.thread f) s
    (.select items (some c.1), c.2)

section Threads

variable {f : α → σ → β × σ} {g : β → τ → γ × τ} {h : α → τ → γ × τ}

theorem threadList_threadList (same : ∀ a s t, g (f a s).1 t = h a t) (as : List α) (s : σ)
    (t : τ) :
    threadList g (threadList f as s).1 t = threadList h as t := by
  induction as generalizing s t with
  | nil => rfl
  | cons a rest ih => simp only [threadList, same, ih]

theorem Atom.thread_thread (same : ∀ a s t, g (f a s).1 t = h a t) (a : Atom α) (s : σ) (t : τ) :
    (a.thread f s).1.thread g t = a.thread h t := by
  cases a with
  | equal negated flipped column value => simp only [thread, same]
  | among negated column values => simp only [thread, threadList_threadList same]
  | isNull negated column => rfl

theorem Condition.thread_thread (same : ∀ a s t, g (f a s).1 t = h a t) (c : Condition α) (s : σ)
    (t : τ) : (c.thread f s).1.thread g t = c.thread h t := by
  induction c generalizing s t with
  | atom a => simp only [thread, same]
  | nested c ih => simp only [thread, ih]
  | not c ih => simp only [thread, ih]
  | and l r left right => simp only [thread, left, right]
  | or l r left right => simp only [thread, left, right]

/-- Two passes are one where the second does not see what state the first was in. -/
theorem Request.thread_thread (same : ∀ a s t, g (f a s).1 t = h a t) (r : Request α) (s : σ)
    (t : τ) : (r.thread f s).1.thread g t = r.thread h t := by
  cases r with
  | insert rowWord columns rows =>
    simp only [thread, threadList_threadList (threadList_threadList same)]
  | select items condition =>
    cases condition with
    | none => rfl
    | some c => simp only [thread, c.thread_thread (Atom.thread_thread same)]

theorem threadList_map (f : α → β) (as : List α) (s : σ) :
    threadList (fun a s => (f a, s)) as s = (as.map f, s) := by
  induction as with
  | nil => rfl
  | cons a as ih => simp only [threadList, ih, List.map_cons]

theorem Atom.thread_map (f : α → β) (a : Atom α) (s : σ) :
    a.thread (fun a s => (f a, s)) s = (a.map f, s) := by
  cases a with
  | among negated column values => simp only [thread, threadList_map, map]
  | _ => rfl

theorem Condition.thread_map {f : α → σ → β × σ} {g : α → β} (maps : ∀ a s, f a s = (g a, s))
    (c : Condition α) (s : σ) : c.thread f s = (c.map g, s) := by
  induction c with
  | atom a => simp only [thread, maps, map]
  | nested c ih => simp only [thread, ih, map]
  | not c ih => simp only [thread, ih, map]
  | and l r left right => simp only [thread, left, right, map]
  | or l r left right => simp only [thread, left, right, map]

/-- A pass that does not look at the state maps the entries. -/
theorem Request.thread_map (f : α → β) (r : Request α) (s : σ) :
    r.thread (fun a s => (f a, s)) s = (r.map f, s) := by
  cases r with
  | insert rowWord columns rows =>
    have row : threadList (σ := σ) (fun a s => (f a, s)) = fun as s => (as.map f, s) := by
      funext as s
      exact threadList_map f as s
    simp only [thread, row, threadList_map, map]
  | select items condition =>
    cases condition with
    | none => rfl
    | some c => simp only [thread, c.thread_map (Atom.thread_map f), map, Option.map_some]

end Threads

/-! Walks over the statement of a request. -/

section Walks

variable {ν μ : Type} {v : Visitor ν μ σ} {f : Entry ν → σ → Entry μ × σ}

theorem walkExprs_entries (value : ∀ e s, v.value e.toValue s = ((f e s).1.toValue, (f e s).2))
    (es : List (Entry ν)) (s : σ) :
    walkExprs v (es.map Entry.toExpr) s =
      ((threadList f es s).1.map Entry.toExpr, (threadList f es s).2) := by
  induction es generalizing s with
  | nil => rfl
  | cons e rest ih =>
    simp only [List.map_cons, walkExprs, Entry.toExpr, Expr.walk, value, threadList] at ih ⊢
    rw [ih]

theorem walkRows_entries (value : ∀ e s, v.value e.toValue s = ((f e s).1.toValue, (f e s).2))
    (rows : List (List (Entry ν))) (s : σ) :
    walkRows v (rows.map (·.map Entry.toExpr)) s =
      ((threadList (threadList f) rows s).1.map (·.map Entry.toExpr),
        (threadList (threadList f) rows s).2) := by
  induction rows generalizing s with
  | nil => rfl
  | cons row rest ih =>
    simp only [List.map_cons, walkRows, walkExprs_entries value, threadList, ih]

theorem Atom.walk_toExpr (value : ∀ e s, v.value e.toValue s = ((f e s).1.toValue, (f e s).2))
    (a : Atom (Entry ν)) (s : σ) :
    a.toExpr.walk v s = ((a.thread f s).1.toExpr, (a.thread f s).2) := by
  cases a with
  | equal negated flipped column e =>
    cases flipped <;> simp [toExpr, thread, Expr.walk, columnExpr, Entry.toExpr, value]
  | among negated column values =>
    simp only [toExpr, thread, Expr.walk, columnExpr, walkExprs_entries value]
  | isNull negated column => rfl

theorem Condition.walk_toExpr (value : ∀ e s, v.value e.toValue s = ((f e s).1.toValue, (f e s).2))
    (c : Condition (Atom (Entry ν))) (s : σ) :
    c.toExpr.walk v s =
      ((c.thread (Atom.thread f) s).1.toExpr, (c.thread (Atom.thread f) s).2) := by
  induction c generalizing s with
  | atom a => exact a.walk_toExpr value s
  | nested c ih => simp only [toExpr, thread, Expr.walk, ih]
  | not c ih => simp only [toExpr, thread, Expr.walk, ih]
  | and l r left right => simp only [toExpr, thread, Expr.walk, left, right]
  | or l r left right => simp only [toExpr, thread, Expr.walk, left, right]

theorem walkItems_columns (items : List Item) (s : σ) :
    walkItems v (items.map Item.toSelectItem) s = (items.map Item.toSelectItem, s) := by
  induction items with
  | nil => rfl
  | cons item rest ih =>
    simp only [List.map_cons, walkItems, Item.toSelectItem, SelectItem.walk, columnExpr,
      Expr.walk] at ih ⊢
    rw [ih]

/-- A walk meets the table first and then the entries. -/
theorem Request.walk_toStatement (table : String)
    (value : ∀ e s, v.value e.toValue s = ((f e s).1.toValue, (f e s).2)) (r : Request (Entry ν))
    (s : σ) : (r.toStatement table).walk v s =
      ((r.thread f (v.table [.bare table] s)).1.toStatement table,
        (r.thread f (v.table [.bare table] s)).2) := by
  cases r with
  | insert rowWord columns rows =>
    simp [toStatement, insertOf, thread, Statement.walk, Insert.walk, walkQuery?, Query.walk,
      SetExpr.walk, walkCtes, walkExprs, walkAssignments, walkOption, walkRows_entries value]
  | select items condition =>
    cases condition with
    | none =>
      simp [toStatement, selectOf, thread, Statement.walk, Query.walk, SetExpr.walk, walkCtes,
        walkExprs, Select.walk, walkItems_columns, walkSources, FromItem.walk, TableFactor.walk,
        walkJoins, walkOption]
    | some c =>
      simp [toStatement, selectOf, thread, Statement.walk, Query.walk, SetExpr.walk, walkCtes,
        walkExprs, Select.walk, walkItems_columns, walkSources, FromItem.walk, TableFactor.walk,
        walkJoins, walkOption, c.walk_toExpr value]

theorem Request.tableNames_toStatement (table : String) (r : Request (Entry ν)) :
    (r.toStatement table).tableNames = [[.bare table]] := by
  unfold Statement.tableNames
  rw [r.walk_toStatement table (f := fun e s => (e, s)) fun _ _ => rfl]
  exact congrArg Prod.snd (r.thread_map id _)

end Walks

/-! Numbers, and the values that placeholders take. -/

variable {ν : Type}

def Entry.numberFrom : Entry → Nat → Entry Nat × Nat
  | .placeholder none, n => (.placeholder (some n), n + 1)
  | .placeholder (some ordinal), _ => ordinal.elim
  | .string text, n => (.string text, n)
  | .number text long, n => (.number text long, n)
  | .null, n => (.null, n)

def Entry.restore : Entry Nat → Entry
  | .placeholder _ => .placeholder none
  | .string text => .string text
  | .number text long => .number text long
  | .null => .null

/-- A placeholder takes the next value; a literal is the text that it is written as. -/
def Entry.take : Entry ν → List Json → Json × List Json
  | .placeholder _, values => (values.headD .null, values.tail)
  | .string text, values => (.string text, values)
  | .number text _, values => (.string text, values)
  | .null, values => (.null, values)

namespace Request

def number (r : Request Entry) : Request (Entry Nat) := (r.thread Entry.numberFrom 0).1

def restore (r : Request (Entry Nat)) : Request Entry := r.map Entry.restore

def bind (r : Request (Entry ν)) (values : List Json) : Request Json :=
  (r.thread Entry.take values).1

theorem number_toStatement (table : String) (r : Request Entry) :
    (r.toStatement table).number.1 = r.number.toStatement table := by
  have value : ∀ (e : Entry) n,
      numbering.value e.toValue n = ((e.numberFrom n).1.toValue, (e.numberFrom n).2) := by
    intro e n
    cases e with
    | placeholder ordinal =>
      cases ordinal with
      | none => rfl
      | some ordinal => cases ordinal
    | _ => rfl
  exact congrArg Prod.fst (r.walk_toStatement table value 0)

theorem restore_toStatement (table : String) (r : Request (Entry Nat)) :
    (r.toStatement table).restore = r.restore.toStatement table := by
  have value : ∀ (e : Entry Nat) s,
      restoring.value e.toValue s = (e.restore.toValue, s) := by
    intro e s
    cases e with
    | placeholder ordinal => cases ordinal <;> rfl
    | _ => rfl
  have walk := r.walk_toStatement table (f := fun e s => (e.restore, s)) value ()
  rw [r.thread_map] at walk
  exact congrArg Prod.fst walk

theorem restore_number (r : Request Entry) : r.number.restore = r := by
  have same : ∀ (e : Entry) n (s : Unit), ((e.numberFrom n).1.restore, s) = (id e, s) := by
    intro e n s
    cases e with
    | placeholder ordinal =>
      cases ordinal with
      | none => rfl
      | some ordinal => cases ordinal
    | _ => rfl
  have both := r.thread_thread (g := fun (e : Entry Nat) (s : Unit) => (e.restore, s))
    (h := fun e s => (id e, s)) same 0 ()
  rw [thread_map, thread_map, map_id] at both
  exact congrArg Prod.fst both

theorem bind_number (r : Request Entry) (values : List Json) :
    r.number.bind values = r.bind values := by
  have same : ∀ (e : Entry) n values, (e.numberFrom n).1.take values = e.take values := by
    intro e n values
    cases e with
    | placeholder ordinal =>
      cases ordinal with
      | none => rfl
      | some ordinal => cases ordinal
    | _ => rfl
  exact congrArg Prod.fst (r.thread_thread same 0 values)

theorem bind_restore (r : Request (Entry Nat)) (values : List Json) :
    r.restore.bind values = r.bind values := by
  have same : ∀ (e : Entry Nat) (s : Unit) values, e.restore.take values = e.take values := by
    intro e s values
    cases e <;> rfl
  have both := r.thread_thread (f := fun (e : Entry Nat) s => (e.restore, s)) same () values
  rw [thread_map] at both
  exact congrArg Prod.fst both

end Request

/-! Requests whose placeholders are all numbered. -/

def Atom.entries : Atom α → List α
  | .equal _ _ _ value => [value]
  | .among _ _ values => values
  | .isNull _ _ => []

def Atom.column : Atom α → String
  | .equal _ _ column _ => column
  | .among _ column _ => column
  | .isNull _ column => column

theorem Atom.column_map (f : α → β) (a : Atom α) : (a.map f).column = a.column := by
  cases a <;> rfl

theorem Atom.entries_map (f : α → β) (a : Atom α) : (a.map f).entries = a.entries.map f := by
  cases a <;> rfl

namespace Condition

def atoms : Condition α → List α
  | .atom a => [a]
  | .nested c => c.atoms
  | .not c => c.atoms
  | .and l r => l.atoms ++ r.atoms
  | .or l r => l.atoms ++ r.atoms

theorem atoms_map (f : α → β) (c : Condition α) : (c.map f).atoms = c.atoms.map f := by
  induction c with
  | atom a => rfl
  | nested c ih => exact ih
  | not c ih => exact ih
  | and l r left right => simp only [map, atoms, left, right, List.map_append]
  | or l r left right => simp only [map, atoms, left, right, List.map_append]

def entries (c : Condition (Atom α)) : List α := c.atoms.flatMap Atom.entries

theorem entries_atom (a : Atom α) : (atom a).entries = a.entries := by
  simp [entries, atoms]

theorem entries_nested (c : Condition (Atom α)) : (nested c).entries = c.entries := rfl

theorem entries_not (c : Condition (Atom α)) : (not c).entries = c.entries := rfl

theorem entries_and (l r : Condition (Atom α)) : (and l r).entries = l.entries ++ r.entries :=
  List.flatMap_append

theorem entries_or (l r : Condition (Atom α)) : (or l r).entries = l.entries ++ r.entries :=
  List.flatMap_append

end Condition

def Request.entries : Request α → List α
  | .insert _ _ rows => rows.flatten
  | .select _ none => []
  | .select _ (some c) => c.entries

def Entry.ordinals : Entry Nat → List Nat
  | .placeholder (some n) => [n]
  | _ => []

/-- The value of an entry where the placeholder with the ordinal `n` has the value `ρ n`. -/
def Entry.cell (ρ : Nat → Json) : Entry Nat → Json
  | .placeholder (some n) => ρ n
  | .placeholder none => .null
  | .string text => .string text
  | .number text _ => .string text
  | .null => .null

section Numbered

variable {ρ : Nat → Json}

theorem Entry.take_numbered {e : Entry Nat} (numbered : e ≠ .placeholder none) (rest : List Json) :
    e.take (e.ordinals.map ρ ++ rest) = (e.cell ρ, rest) := by
  cases e with
  | placeholder ordinal =>
    cases ordinal with
    | none => exact absurd rfl numbered
    | some n => rfl
  | _ => rfl

theorem threadList_take {es : List (Entry Nat)} (numbered : .placeholder none ∉ es)
    (rest : List Json) :
    threadList Entry.take es ((es.flatMap Entry.ordinals).map ρ ++ rest) =
      (es.map (Entry.cell ρ), rest) := by
  induction es with
  | nil => rfl
  | cons e es ih =>
    rw [List.mem_cons, not_or] at numbered
    simp only [threadList, List.flatMap_cons, List.map_append, List.append_assoc,
      Entry.take_numbered (Ne.symm numbered.1), ih numbered.2, List.map_cons]

theorem threadRows_take {rows : List (List (Entry Nat))}
    (numbered : .placeholder none ∉ rows.flatten)
    (rest : List Json) :
    threadList (threadList Entry.take) rows ((rows.flatten.flatMap Entry.ordinals).map ρ ++ rest) =
      (rows.map (·.map (Entry.cell ρ)), rest) := by
  induction rows with
  | nil => rfl
  | cons row rows ih =>
    rw [List.flatten_cons, List.mem_append, not_or] at numbered
    simp only [threadList, List.flatten_cons, List.flatMap_append, List.map_append,
      List.append_assoc, threadList_take numbered.1, ih numbered.2, List.map_cons]

theorem Atom.thread_take {a : Atom (Entry Nat)} (numbered : .placeholder none ∉ a.entries)
    (rest : List Json) :
    a.thread Entry.take ((a.entries.flatMap Entry.ordinals).map ρ ++ rest) =
      (a.map (Entry.cell ρ), rest) := by
  cases a with
  | equal negated flipped column value =>
    have here : value ≠ .placeholder none := fun same => numbered (by simp [entries, same])
    simp only [thread, entries, List.flatMap_cons, List.flatMap_nil, List.append_nil,
      Entry.take_numbered here, map]
  | among negated column values =>
    have items : .placeholder none ∉ values := numbered
    simp only [thread, entries, threadList_take items, map]
  | isNull negated column => rfl

theorem Condition.thread_take {c : Condition (Atom (Entry Nat))}
    (numbered : .placeholder none ∉ c.entries) (rest : List Json) :
    c.thread (Atom.thread Entry.take) ((c.entries.flatMap Entry.ordinals).map ρ ++ rest) =
      (c.map (Atom.map (Entry.cell ρ)), rest) := by
  induction c generalizing rest with
  | atom a =>
    rw [entries_atom] at numbered ⊢
    simp only [thread, a.thread_take numbered, map]
  | nested c ih => simp only [entries_nested, thread, ih numbered, map]
  | not c ih => simp only [entries_not, thread, ih numbered, map]
  | and l r left right =>
    rw [entries_and, List.mem_append, not_or] at numbered
    simp only [entries_and, List.flatMap_append, List.map_append, List.append_assoc, thread,
      left numbered.1, right numbered.2, map]
  | or l r left right =>
    rw [entries_or, List.mem_append, not_or] at numbered
    simp only [entries_or, List.flatMap_append, List.map_append, List.append_assoc, thread,
      left numbered.1, right numbered.2, map]

theorem Request.bind_numbered {r : Request (Entry Nat)} (numbered : .placeholder none ∉ r.entries) :
    r.bind ((r.entries.flatMap Entry.ordinals).map ρ) = r.map (Entry.cell ρ) := by
  have whole : r.thread Entry.take ((r.entries.flatMap Entry.ordinals).map ρ ++ []) =
      (r.map (Entry.cell ρ), []) := by
    cases r with
    | insert rowWord columns rows => simp only [thread, entries, threadRows_take numbered, map]
    | select items condition =>
      cases condition with
      | none => rfl
      | some c => simp only [thread, entries, c.thread_take numbered, map, Option.map_some]
  rw [List.append_nil] at whole
  exact congrArg Prod.fst whole

end Numbered

/-! The placeholders of the statement of a request. -/

section Origins

theorem originsOf_entries (es : List (Entry ν)) :
    originsOf (visitsAll (es.map Entry.toExpr)) = es.filterMap fun e => e.toValue.origin? := by
  induction es with
  | nil => rfl
  | cons e es ih =>
    simp only [List.map_cons, visitsAll, Entry.toExpr, Expr.visits, originsOf_append,
      originsOf_value, originsOf_nil, List.append_nil] at ih ⊢
    rw [ih]
    cases h : e.toValue.origin? <;> simp [h]

theorem originsOf_rows (rows : List (List (Entry ν))) :
    originsOf (visitsRows (rows.map (·.map Entry.toExpr))) =
      rows.flatten.filterMap fun e => e.toValue.origin? := by
  induction rows with
  | nil => rfl
  | cons row rows ih =>
    simp only [List.map_cons, visitsRows, originsOf_append, originsOf_entries, ih,
      List.flatten_cons, List.filterMap_append]

theorem Atom.originsOf_toExpr (a : Atom (Entry ν)) :
    originsOf a.toExpr.visits = a.entries.filterMap fun e => e.toValue.origin? := by
  cases a with
  | equal negated flipped column value =>
    have single := originsOf_entries [value]
    simp only [List.map_cons, List.map_nil, visitsAll, List.append_nil] at single
    cases flipped <;> simpa [toExpr, Expr.visits, columnExpr, entries] using single
  | among negated column values =>
    simpa [toExpr, Expr.visits, columnExpr, entries] using originsOf_entries values
  | isNull negated column => rfl

theorem Condition.originsOf_toExpr (c : Condition (Atom (Entry ν))) :
    originsOf c.toExpr.visits = c.entries.filterMap fun e => e.toValue.origin? := by
  induction c with
  | atom a => rw [entries_atom]; exact a.originsOf_toExpr
  | nested c ih => simpa only [toExpr, Expr.visits, entries_nested] using ih
  | not c ih => simpa only [toExpr, Expr.visits, entries_not] using ih
  | and l r left right =>
    simp only [toExpr, Expr.visits, originsOf_append, left, right, entries_and,
      List.filterMap_append]
  | or l r left right =>
    simp only [toExpr, Expr.visits, originsOf_append, left, right, entries_or,
      List.filterMap_append]

theorem visits_columns (items : List Item) :
    visitsItems (items.map fun item => (item.toSelectItem : SelectItem ν)) = [] := by
  induction items with
  | nil => rfl
  | cons item items ih => exact ih

theorem Request.origins_toStatement (table : String) (r : Request (Entry ν)) :
    (r.toStatement table).origins = r.entries.filterMap fun e => e.toValue.origin? := by
  cases r with
  | insert rowWord columns rows =>
    simp [Statement.origins, toStatement, insertOf, Statement.visits, Insert.visits, visitsQuery?,
      Query.visits, visitsCtes, SetExpr.visits, visitsAll, visitsAssignments, visitsOption,
      originsOf_rows, entries]
  | select items condition =>
    cases condition with
    | none =>
      simp [Statement.origins, toStatement, selectOf, Statement.visits, Query.visits, visitsCtes,
        SetExpr.visits, visitsAll, Select.visits, visits_columns, visitsSources, FromItem.visits,
        TableFactor.visits, visitsJoins, visitsOption, entries]
    | some c =>
      simp [Statement.origins, toStatement, selectOf, Statement.visits, Query.visits, visitsCtes,
        SetExpr.visits, visitsAll, Select.visits, visits_columns, visitsSources, FromItem.visits,
        TableFactor.visits, visitsJoins, visitsOption, entries, c.originsOf_toExpr]

/-- All placeholders of a numbered request are numbered, from zero upwards. -/
theorem Request.entries_number (table : String) (r : Request Entry) :
    .placeholder none ∉ r.number.entries ∧
      r.number.entries.flatMap Entry.ordinals =
        List.range (r.toStatement table).countAnonymous := by
  have origins := (r.toStatement table).origins_number
  rw [r.number_toStatement table, origins_toStatement] at origins
  refine ⟨fun member => ?_, ?_⟩
  · have anonymous : none ∈ (List.range (r.toStatement table).countAnonymous).map some := by
      rw [← origins]
      exact List.mem_filterMap.mpr ⟨_, member, rfl⟩
    simp at anonymous
  · have ordinals : Entry.ordinals = fun e => (e.toValue.origin?.bind id).toList := by
      funext e
      cases e with
      | placeholder ordinal => cases ordinal <;> rfl
      | _ => rfl
    have known := congrArg (List.filterMap id) origins
    rw [List.filterMap_filterMap, List.filterMap_map, List.filterMap_eq_flatMap_toList] at known
    rw [ordinals, known]
    exact List.filterMap_some

end Origins

end SealedColumns.Store

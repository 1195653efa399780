import SealedColumns.Sql.Walk

/-!
Requests to a single table: rows to insert, or columns to select under a condition. A request is
written as a statement, and a statement of that form is read back as the request.
-/
namespace SealedColumns.Store

open Sql

/-- What stands for a value: a placeholder, a literal or NULL. -/
inductive Entry (ν : Type := Empty) where
  | placeholder (ordinal : Option ν)
  | string (text : String)
  | number (text : String) (long : Bool)
  | null
deriving DecidableEq

inductive Atom (α : Type) where
  | equal (negated flipped : Bool) (column : String) (value : α)
  | among (negated : Bool) (column : String) (values : List α)
  | isNull (negated : Bool) (column : String)
deriving DecidableEq

inductive Condition (α : Type) where
  | atom (atom : α)
  | nested (inner : Condition α)
  | not (inner : Condition α)
  | and (left right : Condition α)
  | or (left right : Condition α)
deriving DecidableEq

/-- A column to select, and the name under which it is given out if it is another one. -/
structure Item where
  column : String
  label : Option String
deriving DecidableEq

def Item.output (item : Item) : String := item.label.getD item.column

inductive Request (α : Type) where
  | insert (rowWord : Bool) (columns : List String) (rows : List (List α))
  | select (items : List Item) (condition : Option (Condition (Atom α)))
deriving DecidableEq

variable {ν : Type}

/-! Writing. -/

def Entry.toValue : Entry ν → Value ν
  | .placeholder none => .placeholder .anonymous
  | .placeholder (some ordinal) => .placeholder (.numbered ordinal)
  | .string text => .string text
  | .number text long => .number text long
  | .null => .null

def Entry.toExpr (e : Entry ν) : Expr ν := .value e.toValue

def columnExpr (column : String) : Expr ν := .column [] (.bare column)

def Atom.toExpr : Atom (Entry ν) → Expr ν
  | .equal negated flipped column value =>
    let op := if negated then .notEqual else .equal
    if flipped then .binary value.toExpr op (columnExpr column)
    else .binary (columnExpr column) op value.toExpr
  | .among negated column values =>
    .inList negated (columnExpr column) (values.map Entry.toExpr)
  | .isNull negated column => .isNull negated (columnExpr column)

def Condition.toExpr : Condition (Atom (Entry ν)) → Expr ν
  | .atom a => a.toExpr
  | .nested c => .nested c.toExpr
  | .not c => .unary .not c.toExpr
  | .and l r => .binary l.toExpr .and r.toExpr
  | .or l r => .binary l.toExpr .or r.toExpr

def Item.toSelectItem (item : Item) : SelectItem ν :=
  ⟨columnExpr item.column, item.label.map .bare⟩

def insertInto : InsertVerb := ⟨false, none, none, false, false, true, false⟩

def insertOf (table : String) (rowWord : Bool) (columns : List String)
    (rows : List (List (Entry ν))) : Insert ν :=
  ⟨insertInto, [.bare table], none, columns.map .bare,
    some ⟨false, [], .values rowWord (rows.map (·.map Entry.toExpr)), []⟩, [], none, .none, [],
    none, []⟩

def selectOf (table : String) (items : List Item)
    (condition : Option (Condition (Atom (Entry ν)))) : Select ν :=
  ⟨.standard, [], items.map Item.toSelectItem, [⟨.table [.bare table] false [] none, []⟩],
    condition.map Condition.toExpr, []⟩

def Request.toStatement (table : String) : Request (Entry ν) → Statement ν
  | .insert rowWord columns rows => .insert (insertOf table rowWord columns rows)
  | .select items condition => .query ⟨false, [], .select (selectOf table items condition), []⟩

/-! Reading. -/

def Entry.ofExpr? : Expr ν → Option (Entry ν)
  | .value (.placeholder .anonymous) => some (.placeholder none)
  | .value (.placeholder (.numbered ordinal)) => some (.placeholder (some ordinal))
  | .value (.string text) => some (.string text)
  | .value (.number text long) => some (.number text long)
  | .value .null => some .null
  | _ => none

def bareText? : Ident → Option String
  | ⟨text, none⟩ => some text
  | _ => none

def columnOf? : Expr ν → Option String
  | .column [] name => bareText? name
  | _ => none

/-- Whether a comparison is by `<>`, where it is one by `=` or `<>`. -/
def negatedBy? : BinaryOp → Option Bool
  | .equal => some false
  | .notEqual => some true
  | _ => none

def Atom.ofExpr? : Expr ν → Option (Atom (Entry ν))
  | .binary l op r => do
    let negated ← negatedBy? op
    match columnOf? l, columnOf? r with
    | some column, none => (Entry.ofExpr? r).map (.equal negated false column)
    | none, some column => (Entry.ofExpr? l).map (.equal negated true column)
    | _, _ => none
  | .inList negated e values => do
    return .among negated (← columnOf? e) (← values.mapM Entry.ofExpr?)
  | .isNull negated e => (columnOf? e).map (.isNull negated)
  | _ => none

def Condition.ofExpr? : Expr ν → Option (Condition (Atom (Entry ν)))
  | .nested e => (ofExpr? e).map .nested
  | .unary .not e => (ofExpr? e).map .not
  | .binary l .and r => do return .and (← ofExpr? l) (← ofExpr? r)
  | .binary l .or r => do return .or (← ofExpr? l) (← ofExpr? r)
  | e => (Atom.ofExpr? e).map .atom

def Item.ofSelectItem? (item : SelectItem ν) : Option Item := do
  let column ← columnOf? item.expr
  match item.label with
  | none => return ⟨column, none⟩
  | some label => return ⟨column, some (← bareText? label)⟩

def readFilter? : Option (Expr ν) → Option (Option (Condition (Atom (Entry ν))))
  | none => some none
  | some e => (Condition.ofExpr? e).map some

def Request.ofStatement? (table : String) : Statement ν → Option (Request (Entry ν))
  | .insert ⟨⟨false, none, none, false, false, true, false⟩, [⟨name, none⟩], none, columns,
      some ⟨false, [], .values rowWord rows, []⟩, [], none, .none, [], none, []⟩ => do
    let columns ← columns.mapM bareText?
    let rows ← rows.mapM (·.mapM Entry.ofExpr?)
    if name = table then some (.insert rowWord columns rows) else none
  | .query ⟨false, [], .select ⟨.standard, [], items,
      [⟨.table [⟨name, none⟩] false [] none, []⟩], filter, []⟩, []⟩ => do
    let items ← items.mapM Item.ofSelectItem?
    let condition ← readFilter? filter
    if name = table then some (.select items condition) else none
  | _ => none

/-! What is read is what was written. -/

section Lists

variable {α β : Type} {read : α → Option β} {write : β → α}

theorem mapM_write (reads : ∀ b, read (write b) = some b) (ys : List β) :
    (ys.map write).mapM read = some ys := by
  induction ys with
  | nil => rfl
  | cons y ys ih => simp [reads, ih]

theorem mapM_read (written : ∀ a b, read a = some b → a = write b) {xs : List α} {ys : List β}
    (accepted : xs.mapM read = some ys) : xs = ys.map write := by
  induction xs generalizing ys with
  | nil =>
    cases accepted
    rfl
  | cons x xs ih =>
    simp only [List.mapM_cons, Option.bind_eq_bind, Option.bind_eq_some_iff] at accepted
    obtain ⟨y, here, rest, later, same⟩ := accepted
    cases same
    rw [List.map_cons, ← written x y here, ← ih later]

end Lists

theorem Entry.ofExpr?_toExpr (e : Entry ν) : ofExpr? e.toExpr = some e := by
  cases e with
  | placeholder ordinal => cases ordinal <;> rfl
  | _ => rfl

theorem Entry.toExpr_ofExpr? (e : Expr ν) (entry : Entry ν) (accepted : ofExpr? e = some entry) :
    e = entry.toExpr := by
  unfold ofExpr? at accepted
  split at accepted <;> cases accepted <;> rfl

theorem bareText?_some {name : Ident} {text : String} (accepted : bareText? name = some text) :
    name = .bare text := by
  unfold bareText? at accepted
  split at accepted <;> cases accepted
  rfl

theorem columnOf?_entry (e : Entry ν) : columnOf? e.toExpr = none := rfl

theorem columnOf?_column (column : String) : columnOf? (columnExpr column : Expr ν) = some column :=
  rfl

theorem columnOf?_some {e : Expr ν} {column : String} (accepted : columnOf? e = some column) :
    e = columnExpr column := by
  unfold columnOf? at accepted
  split at accepted
  · rw [bareText?_some accepted]
    rfl
  · cases accepted

theorem Atom.ofExpr?_toExpr (a : Atom (Entry ν)) : ofExpr? a.toExpr = some a := by
  cases a with
  | equal negated flipped column value =>
    cases negated <;> cases flipped <;>
      simp [toExpr, ofExpr?, negatedBy?, columnOf?_entry, columnOf?_column, value.ofExpr?_toExpr]
  | among negated column values =>
    simp [toExpr, ofExpr?, columnOf?_column, mapM_write Entry.ofExpr?_toExpr]
  | isNull negated column => rfl

theorem negatedBy?_some {op : BinaryOp} {negated : Bool} (accepted : negatedBy? op = some negated) :
    op = if negated then .notEqual else .equal := by
  unfold negatedBy? at accepted
  split at accepted <;> cases accepted <;> rfl

theorem Atom.toExpr_ofExpr? {e : Expr ν} {a : Atom (Entry ν)} (accepted : ofExpr? e = some a) :
    e = a.toExpr := by
  unfold ofExpr? at accepted
  split at accepted
  · rename_i l op r
    simp only [Option.bind_eq_bind, Option.bind_eq_some_iff] at accepted
    obtain ⟨negated, compared, accepted⟩ := accepted
    obtain rfl := negatedBy?_some compared
    split at accepted
    · rename_i column left right
      obtain ⟨value, read, rfl⟩ := Option.map_eq_some_iff.mp accepted
      rw [columnOf?_some left, Entry.toExpr_ofExpr? r value read]
      rfl
    · rename_i column left right
      obtain ⟨value, read, rfl⟩ := Option.map_eq_some_iff.mp accepted
      rw [columnOf?_some right, Entry.toExpr_ofExpr? l value read]
      rfl
    · cases accepted
  · simp only [Option.bind_eq_bind, Option.bind_eq_some_iff] at accepted
    obtain ⟨column, subject, values, read, same⟩ := accepted
    cases same
    rw [columnOf?_some subject, mapM_read Entry.toExpr_ofExpr? read]
    rfl
  · obtain ⟨column, subject, rfl⟩ := Option.map_eq_some_iff.mp accepted
    rw [columnOf?_some subject]
    rfl
  · cases accepted

theorem Condition.ofExpr?_toExpr (c : Condition (Atom (Entry ν))) : ofExpr? c.toExpr = some c := by
  induction c with
  | atom a =>
    have known := a.ofExpr?_toExpr
    cases a with
    | equal negated flipped column value =>
      cases negated <;> cases flipped <;>
        simp only [toExpr, Atom.toExpr, ofExpr?, Bool.false_eq_true, if_true, if_false]
          at known ⊢ <;>
        rw [known] <;> rfl
    | among =>
      simp only [toExpr, Atom.toExpr, ofExpr?] at known ⊢
      rw [known]
      rfl
    | isNull => rfl
  | nested c ih => simp only [toExpr, ofExpr?, ih, Option.map_some]
  | not c ih => simp only [toExpr, ofExpr?, ih, Option.map_some]
  | and l r left right => simp [toExpr, ofExpr?, left, right]
  | or l r left right => simp [toExpr, ofExpr?, left, right]

theorem Condition.toExpr_ofExpr? (e : Expr ν) {c : Condition (Atom (Entry ν))}
    (accepted : ofExpr? e = some c) : e = c.toExpr := by
  fun_induction ofExpr? e generalizing c with
  | case1 e ih =>
    obtain ⟨inner, read, rfl⟩ := Option.map_eq_some_iff.mp accepted
    rw [ih read]
    rfl
  | case2 e ih =>
    obtain ⟨inner, read, rfl⟩ := Option.map_eq_some_iff.mp accepted
    rw [ih read]
    rfl
  | case3 l r left right =>
    simp only [Option.bind_eq_bind, Option.bind_eq_some_iff] at accepted
    obtain ⟨l', readLeft, r', readRight, same⟩ := accepted
    cases same
    rw [left readLeft, right readRight]
    rfl
  | case4 l r left right =>
    simp only [Option.bind_eq_bind, Option.bind_eq_some_iff] at accepted
    obtain ⟨l', readLeft, r', readRight, same⟩ := accepted
    cases same
    rw [left readLeft, right readRight]
    rfl
  | case5 e =>
    obtain ⟨a, read, rfl⟩ := Option.map_eq_some_iff.mp accepted
    exact Atom.toExpr_ofExpr? read

theorem Item.ofSelectItem?_toSelectItem (ν : Type) (item : Item) :
    ofSelectItem? (item.toSelectItem : SelectItem ν) = some item := by
  obtain ⟨column, label⟩ := item
  cases label <;> rfl

theorem Item.toSelectItem_ofSelectItem? (s : SelectItem ν) (item : Item)
    (accepted : ofSelectItem? s = some item) : s = item.toSelectItem := by
  obtain ⟨e, label⟩ := s
  simp only [ofSelectItem?, Option.bind_eq_bind, Option.bind_eq_some_iff] at accepted
  obtain ⟨column, named, accepted⟩ := accepted
  rw [columnOf?_some named]
  cases label with
  | none =>
    cases accepted
    rfl
  | some label =>
    simp only [Option.bind_eq_some_iff] at accepted
    obtain ⟨text, bare, same⟩ := accepted
    cases same
    rw [bareText?_some bare]
    rfl

theorem Request.ofStatement?_toStatement (table : String) (r : Request (Entry ν)) :
    ofStatement? table (r.toStatement table) = some r := by
  cases r with
  | insert rowWord columns rows =>
    have bare : ∀ text, bareText? (.bare text) = some text := fun _ => rfl
    have names := mapM_write bare columns
    have row : ∀ row : List (Entry ν), (row.map Entry.toExpr).mapM Entry.ofExpr? = some row :=
      mapM_write Entry.ofExpr?_toExpr
    have values := mapM_write row rows
    simp only [toStatement, insertOf, insertInto, Ident.bare, ofStatement?] at names ⊢
    simp [names, values]
  | select items condition =>
    have projection := mapM_write (Item.ofSelectItem?_toSelectItem ν) items
    cases condition with
    | none =>
      simp [toStatement, selectOf, Ident.bare, ofStatement?, projection, readFilter?]
    | some c =>
      simp [toStatement, selectOf, Ident.bare, ofStatement?, projection, readFilter?,
        c.ofExpr?_toExpr]

theorem Request.toStatement_ofStatement? {table : String} {t : Statement ν} {r : Request (Entry ν)}
    (accepted : ofStatement? table t = some r) : t = r.toStatement table := by
  unfold ofStatement? at accepted
  split at accepted
  · rename_i name columns rowWord rows
    simp only [Option.bind_eq_bind, Option.bind_eq_some_iff] at accepted
    obtain ⟨columns', names, rows', values, accepted⟩ := accepted
    split at accepted
    · rename_i same
      cases accepted
      subst same
      have row : ∀ (xs : List (Expr ν)) (ys : List (Entry ν)), xs.mapM Entry.ofExpr? = some ys →
          xs = ys.map Entry.toExpr := fun _ _ => mapM_read Entry.toExpr_ofExpr?
      rw [mapM_read (fun _ _ => bareText?_some) names, mapM_read row values]
      rfl
    · cases accepted
  · rename_i items name filter
    simp only [Option.bind_eq_bind, Option.bind_eq_some_iff] at accepted
    obtain ⟨items', projection, condition, read, accepted⟩ := accepted
    split at accepted
    · rename_i same
      cases accepted
      subst same
      rw [mapM_read Item.toSelectItem_ofSelectItem? projection]
      cases filter with
      | none =>
        cases read
        rfl
      | some e =>
        obtain ⟨c, known, rfl⟩ := Option.map_eq_some_iff.mp read
        rw [Condition.toExpr_ofExpr? e known]
        rfl
    · cases accepted
  · cases accepted

end SealedColumns.Store

import Mathlib.Data.List.Forall2
import SealedColumns.Handler
import SealedColumns.Proofs.Store.Layout
import SealedColumns.Proofs.Store.Table

/-!
A table whose sensitive cells are sealed mirrors the plain one: sealed requests keep it so, and
their conditions are as true of a sealed row as the plain conditions are of the plain row.
-/
namespace SealedColumns.Store

/-- What a target and an index cell hold for a text or for null. The texts that occur are `used`. -/
inductive Covers (handler : Handler) (used : String → Prop) :
    Option String → Json → Json → Prop where
  | null : Covers handler used none .null .null
  | text {plain cipher key : String} : used plain → handler.decrypt cipher = .ok plain →
      handler.index plain = .ok key →
        Covers handler used (some plain) (.string cipher) (.string key)

/-- What an index cell is compared with in the place of a value. -/
inductive Keyed (handler : Handler) (used : String → Prop) : Json → Json → Prop where
  | null : Keyed handler used .null .null
  | text {value : Json} {plain key : String} : used plain → value.plain? = some (some plain) →
      handler.index plain = .ok key → Keyed handler used value (.string key)

def Kept (columns : List SensitiveColumn) (name : String) : Prop :=
  sensitive? columns name = none ∧ ¬ Derived columns name

structure Mirrors (handler : Handler) (used : String → Prop) (columns : List SensitiveColumn)
    (row sealedRow : Row) : Prop where
  kept : ∀ name, Kept columns name → cellOf sealedRow name = cellOf row name
  covered : ∀ c ∈ columns, ∃ plain, (cellOf row c.source).plain? = some plain ∧
    Covers handler used plain (cellOf sealedRow c.target) (cellOf sealedRow c.index)

inductive RowSealed (handler : Handler) (used : String → Prop) (columns : List SensitiveColumn) :
    List String → List Json → List String → List Json → Prop where
  | nil : RowSealed handler used columns [] [] [] []
  | kept {name : String} {names names' : List String} {value : Json} {values values' : List Json} :
      Kept columns name → RowSealed handler used columns names values names' values' →
        RowSealed handler used columns (name :: names) (value :: values) (name :: names')
          (value :: values')
  | covered {c : SensitiveColumn} {names names' : List String} {plain : Option String}
      {value target index : Json} {values values' : List Json} : c ∈ columns →
      value.plain? = some plain → Covers handler used plain target index →
      RowSealed handler used columns names values names' values' →
        RowSealed handler used columns (c.source :: names) (value :: values)
          (c.target :: c.index :: names') (target :: index :: values')

inductive AtomSealed (handler : Handler) (used : String → Prop) (columns : List SensitiveColumn) :
    Atom Json → Atom Json → Prop where
  | kept {a : Atom Json} : Kept columns a.column → AtomSealed handler used columns a a
  | equal {negated flipped : Bool} {c : SensitiveColumn} {value key : Json} : c ∈ columns →
      Keyed handler used value key → AtomSealed handler used columns
        (.equal negated flipped c.source value) (.equal negated flipped c.index key)
  | among {negated : Bool} {c : SensitiveColumn} {values keys : List Json} : c ∈ columns →
      List.Forall₂ (Keyed handler used) values keys → AtomSealed handler used columns
        (.among negated c.source values) (.among negated c.index keys)
  | isNull {negated : Bool} {c : SensitiveColumn} : c ∈ columns →
      AtomSealed handler used columns (.isNull negated c.source) (.isNull negated c.index)

/-- Conditions of one shape whose atoms are related. -/
inductive Condition.Related {α β : Type} (R : α → β → Prop) : Condition α → Condition β → Prop where
  | atom {a : α} {b : β} : R a b → Related R (.atom a) (.atom b)
  | nested {c : Condition α} {d : Condition β} : Related R c d → Related R (.nested c) (.nested d)
  | not {c : Condition α} {d : Condition β} : Related R c d → Related R (.not c) (.not d)
  | and {l r : Condition α} {l' r' : Condition β} : Related R l l' → Related R r r' →
      Related R (.and l r) (.and l' r')
  | or {l r : Condition α} {l' r' : Condition β} : Related R l l' → Related R r r' →
      Related R (.or l r) (.or l' r')

theorem Condition.Related.exists_of_mem {α β : Type} {R : α → β → Prop} {c : Condition α}
    {d : Condition β} (related : Related R c d) : ∀ b ∈ d.atoms, ∃ a ∈ c.atoms, R a b := by
  induction related with
  | atom here => exact List.forall_mem_singleton.mpr ⟨_, List.mem_cons_self, here⟩
  | nested _ ih => exact ih
  | not _ ih => exact ih
  | and _ _ left right | or _ _ left right =>
    refine List.forall_mem_append.mpr ⟨fun b member => ?_, fun b member => ?_⟩
    · obtain ⟨a, inside, here⟩ := left b member
      exact ⟨a, List.mem_append_left _ inside, here⟩
    · obtain ⟨a, inside, here⟩ := right b member
      exact ⟨a, List.mem_append_right _ inside, here⟩

/-- A sensitive column is read from its target under the old name. -/
def sealItem (columns : List SensitiveColumn) (item : Item) : Item :=
  match sensitive? columns item.column with
  | some c => ⟨c.target, some item.output⟩
  | none => item

/-- The sensitive columns among those with these names, each in its place. -/
def slotsOf (columns : List SensitiveColumn) (names : List String) :
    List (Option SensitiveColumn) :=
  names.map (sensitive? columns)

def textsOf (value : Json) : List String := (value.plain?.join).toList

/-- The texts that a request writes to sensitive columns or compares with them. -/
def sensitiveTexts (columns : List SensitiveColumn) : Request Json → List String
  | .insert _ names rows => rows.flatMap fun row =>
      (row.zip (slotsOf columns names)).flatMap fun (value, slot) =>
        if slot.isSome then textsOf value else []
  | .select _ none => []
  | .select _ (some c) => c.atoms.flatMap fun a =>
      if (sensitive? columns a.column).isSome then a.entries.flatMap textsOf else []

section Rows

variable {handler : Handler} {used : String → Prop} {table : String}
  {columns : List SensitiveColumn}

theorem cellOf_cons (name : String) (value : Json) (row : Row) (asked : String) :
    cellOf ((name, value) :: row) asked = if name = asked then value else cellOf row asked := by
  simp only [cellOf, Members.get?]
  split <;> rfl

theorem Kept.apart (layout : Layout table columns) {name : String} (kept : Kept columns name)
    {c : SensitiveColumn} (member : c ∈ columns) {a : String} (named : a ∈ columnNames c) :
    a ≠ name := by
  rintro rfl
  simp only [columnNames, List.mem_cons, List.not_mem_nil, or_false] at named
  rcases named with rfl | rfl | rfl
  · have found := kept.1
    rw [layout.sensitive?_source member] at found
    cases found
  · exact kept.2 ⟨c, member, .inl rfl⟩
  · exact kept.2 ⟨c, member, .inr rfl⟩

theorem RowSealed.mirrors (layout : Layout table columns) {names names' : List String}
    {values values' : List Json}
    (rows : RowSealed handler used columns names values names' values') :
    Mirrors handler used columns (names.zip values) (names'.zip values') := by
  induction rows with
  | nil => exact ⟨fun _ _ => rfl, fun c _ => ⟨none, rfl, .null⟩⟩
  | @kept name names names' value values values' kept _ ih =>
    refine ⟨fun asked plain => ?_, fun c member => ?_⟩
    · simp only [List.zip_cons_cons, cellOf_cons, ih.kept asked plain]
    · have source := (kept.apart layout member (source_mem c)).symm
      have target := (kept.apart layout member (target_mem c)).symm
      have index := (kept.apart layout member (index_mem c)).symm
      simpa only [List.zip_cons_cons, cellOf_cons, if_neg source, if_neg target, if_neg index] using
        ih.covered c member
  | @covered c names names' plain value target index values values' member read covers _ ih =>
    refine ⟨fun asked kept => ?_, fun d other => ?_⟩
    · have source := kept.apart layout member (source_mem c)
      have target := kept.apart layout member (target_mem c)
      have index := kept.apart layout member (index_mem c)
      simp only [List.zip_cons_cons, cellOf_cons, if_neg source, if_neg target, if_neg index,
        ih.kept asked kept]
    · by_cases same : c = d
      · subst same
        have apart : c.target ≠ c.index := by
          have names := layout.names member
          simp only [columnNames, List.nodup_cons, List.mem_singleton] at names
          exact names.2.1
        refine ⟨plain, ?_, ?_⟩
        · simpa only [List.zip_cons_cons, cellOf_cons, if_true] using read
        · simpa only [List.zip_cons_cons, cellOf_cons, if_true, if_neg apart] using covers
      · have source := layout.apart member other same (source_mem c) (source_mem d)
        have targets := layout.apart member other same (target_mem c) (target_mem d)
        have cross := layout.apart member other same (target_mem c) (index_mem d)
        have back := layout.apart member other same (index_mem c) (target_mem d)
        have indexes := layout.apart member other same (index_mem c) (index_mem d)
        simpa only [List.zip_cons_cons, cellOf_cons, if_neg source, if_neg targets, if_neg cross,
          if_neg back, if_neg indexes] using ih.covered d other

end Rows

/-! Conditions. -/

section Conditions

variable {handler : Handler} {used : String → Prop} {columns : List SensitiveColumn}

theorem isNull_iff (value : Json) : isNull value = true ↔ value.plain? = some none := by
  cases value <;> simp [isNull, Json.plain?]

theorem sameText_null {a b : Json} (null : a.plain? = some none ∨ b.plain? = some none) :
    sameText a b = none := by
  unfold sameText
  rcases null with null | null
  · rw [null]
  · rw [null]
    rcases a.plain? with _ | _ | _ <;> rfl

theorem sameText_texts {a b : Json} {s t : String} (left : a.plain? = some (some s))
    (right : b.plain? = some (some t)) : sameText a b = some (decide (s = t)) := by
  unfold sameText
  rw [left, right]

theorem Covers.sameText
    (injective : ∀ a b, used a → used b → handler.index a = handler.index b → a = b)
    {plain : Option String} {cell target index value key : Json} (read : cell.plain? = some plain)
    (covers : Covers handler used plain target index) (keyed : Keyed handler used value key) :
    Store.sameText index key = Store.sameText cell value := by
  cases keyed with
  | null => rw [sameText_null (.inr rfl), sameText_null (.inr rfl)]
  | @text _ asked k askedUsed known indexed =>
    cases covers with
    | null => rw [sameText_null (.inl rfl), sameText_null (.inl read)]
    | @text plain cipher h plainUsed _ stored =>
      rw [sameText_texts rfl rfl, sameText_texts read known]
      have agree : h = k ↔ plain = asked := by
        constructor
        · rintro rfl
          exact injective plain asked plainUsed askedUsed (stored.trans indexed.symm)
        · rintro rfl
          exact Except.ok.inj (stored.symm.trans indexed)
      simp only [agree]

theorem Covers.isNull {plain : Option String} {cell target index : Json}
    (read : cell.plain? = some plain) (covers : Covers handler used plain target index) :
    Store.isNull index = Store.isNull cell := by
  cases covers with
  | null => exact ((isNull_iff cell).mpr read).symm
  | text =>
    cases known : Store.isNull cell with
    | false => rfl
    | true =>
      rw [(isNull_iff cell).mp known] at read
      cases read

theorem AtomSealed.holds
    (injective : ∀ a b, used a → used b → handler.index a = handler.index b → a = b)
    {row sealedRow : Row} (mirrors : Mirrors handler used columns row sealedRow) {a b : Atom Json}
    (sealedAtom : AtomSealed handler used columns a b) : b.holds sealedRow = a.holds row := by
  cases sealedAtom with
  | kept kept =>
    have same := mirrors.kept _ kept
    cases a <;> simp only [Atom.holds, Atom.column] at same ⊢ <;> rw [same]
  | equal member keyed =>
    obtain ⟨plain, read, covers⟩ := mirrors.covered _ member
    simp only [Atom.holds, covers.sameText injective read keyed]
  | @among negated c values keys member keyed =>
    obtain ⟨plain, read, covers⟩ := mirrors.covered _ member
    have same : keys.map (sameText (cellOf sealedRow c.index)) =
        values.map (sameText (cellOf row c.source)) := by
      induction keyed with
      | nil => rfl
      | cons head _ ih => rw [List.map_cons, List.map_cons, ih, covers.sameText injective read head]
    simp only [Atom.holds, same]
  | isNull member =>
    obtain ⟨plain, read, covers⟩ := mirrors.covered _ member
    simp only [Atom.holds, covers.isNull read]

theorem Condition.Related.holds {α β : Type} {R : α → β → Prop} {f : α → Truth} {g : β → Truth}
    (agree : ∀ a b, R a b → g b = f a) {c : Condition α} {d : Condition β}
    (related : Related R c d) :
    d.holds g = c.holds f := by
  induction related with
  | atom here => exact agree _ _ here
  | nested _ ih => exact ih
  | not _ ih => simp only [Condition.holds, ih]
  | and _ _ left right => simp only [Condition.holds, left, right]
  | or _ _ left right => simp only [Condition.holds, left, right]

end Conditions

/-! Requests. -/

inductive RequestSealed (handler : Handler) (used : String → Prop)
    (columns : List SensitiveColumn) : Request Json → Request Json → Prop where
  | insert {rowWord : Bool} {names names' : List String} {rows rows' : List (List Json)} :
      List.Forall₂ (RowSealed handler used columns names · names' ·) rows rows' →
        RequestSealed handler used columns (.insert rowWord names rows)
          (.insert rowWord names' rows')
  | all {items : List Item} : RequestSealed handler used columns (.select items none)
      (.select (items.map (sealItem columns)) none)
  | filtered {items : List Item} {c d : Condition (Atom Json)} :
      Condition.Related (AtomSealed handler used columns) c d →
        RequestSealed handler used columns (.select items (some c))
          (.select (items.map (sealItem columns)) (some d))

section Requests

variable {handler : Handler} {used : String → Prop} {name : String}
  {columns : List SensitiveColumn} {table sealedTable : Table}

/-- Rows that are inserted sealed mirror the plain ones, and are as many. -/
theorem RequestSealed.insert_mirrors (layout : Layout name columns) {rowWord : Bool}
    {names : List String} {rows : List (List Json)} {r : Request Json}
    (mirrors : List.Forall₂ (Mirrors handler used columns) table sealedTable)
    (requests : RequestSealed handler used columns (.insert rowWord names rows) r) :
    ∃ sealedTable', r.run sealedTable = (sealedTable', .scalar (.ofNat rows.length)) ∧
      List.Forall₂ (Mirrors handler used columns)
        ((Request.insert rowWord names rows).run table).1 sealedTable' := by
  cases requests with
  | @insert _ _ names' _ rows' sealedRows =>
    refine ⟨sealedTable ++ rows'.map names'.zip, ?_, List.rel_append mirrors ?_⟩
    · rw [sealedRows.length_eq]
      rfl
    · induction sealedRows with
      | nil => exact .nil
      | cons here _ ih => exact .cons (here.mirrors layout) ih

/-- The rows that a sealed request gives out mirror the ones that the plain request gives out. -/
theorem RequestSealed.select_mirrors
    (injective : ∀ a b, used a → used b → handler.index a = handler.index b → a = b)
    (mirrors : List.Forall₂ (Mirrors handler used columns) table sealedTable) {items : List Item}
    {condition : Option (Condition (Atom Json))} {r : Request Json}
    (requests : RequestSealed handler used columns (.select items condition) r) :
    ∃ rows sealedRows, List.Forall₂ (Mirrors handler used columns) rows sealedRows ∧
      (Request.select items condition).run table = (table, .rows (rows.map (project items))) ∧
      r.run sealedTable =
        (sealedTable, .rows (sealedRows.map (project (items.map (sealItem columns))))) := by
  cases requests with
  | all => exact ⟨_, _, List.rel_filter (fun _ _ _ => Iff.rfl) mirrors, rfl, rfl⟩
  | @filtered _ c d related =>
    refine ⟨_, _, List.rel_filter (fun row sealedRow here => ?_) mirrors, rfl, rfl⟩
    have agree := related.holds fun a b atoms => atoms.holds injective here
    simp only [meets, agree]

end Requests

end SealedColumns.Store

import SealedColumns.Proofs.Emission
import SealedColumns.Proofs.Tandem

/-!
The two forms of an INSERT of one row: a column list with the row behind it, and assignments. The
same pairs of column and value are sealed alike in both.
-/
namespace SealedColumns

namespace Sql

variable {ν μ σ : Type}

/-- The assignment of a value to a column without qualifier. -/
def Assignment.simple (write : Ident × Expr ν) : Assignment ν := ⟨.column [write.1], write.2⟩

/-- The INSERT with the pairs as a column list and one row. -/
def Insert.listed (x : Insert ν) (rowWord : Bool) (writes : List (Ident × Expr ν)) : Insert ν :=
  { x with
    columns := writes.map Prod.fst
    source := some ⟨false, [], .values rowWord [writes.map Prod.snd], []⟩
    assignments := [] }

/-- The INSERT with the pairs as assignments. -/
def Insert.assigning (x : Insert ν) (writes : List (Ident × Expr ν)) : Insert ν :=
  { x with columns := [], source := none, assignments := writes.map Assignment.simple }

section Walk

variable (v : Visitor ν μ σ)

def walkWrites : List (Ident × Expr ν) → σ → List (Ident × Expr μ) × σ
  | [], s => ([], s)
  | (column, e) :: writes, s =>
    let (e, s) := e.walk v s
    let (writes, s) := walkWrites writes s
    ((column, e) :: writes, s)

theorem walkWrites_columns (writes : List (Ident × Expr ν)) (s : σ) :
    (walkWrites v writes s).1.map Prod.fst = writes.map Prod.fst := by
  induction writes generalizing s with
  | nil => rfl
  | cons write writes ih => simp only [walkWrites, List.map_cons, ih]

theorem walkExprs_writes (writes : List (Ident × Expr ν)) (s : σ) :
    walkExprs v (writes.map Prod.snd) s =
      ((walkWrites v writes s).1.map Prod.snd, (walkWrites v writes s).2) := by
  induction writes generalizing s with
  | nil => rfl
  | cons write writes ih => simp only [walkWrites, walkExprs, List.map_cons, ih]

theorem walkAssignments_writes (writes : List (Ident × Expr ν)) (s : σ) :
    walkAssignments v (writes.map Assignment.simple) s =
      ((walkWrites v writes s).1.map Assignment.simple, (walkWrites v writes s).2) := by
  induction writes generalizing s with
  | nil => rfl
  | cons write writes ih =>
    simp only [walkWrites, walkAssignments, Assignment.walk, Assignment.simple, List.map_cons, ih]

/-- A walk takes both forms of an INSERT to both forms of one INSERT, and ends in one state. -/
theorem Insert.walk_forms (x : Insert ν) (rowWord : Bool) (writes : List (Ident × Expr ν)) (s : σ) :
    ∃ (y : Insert μ) (writes' : List (Ident × Expr μ)) (s' : σ),
      (x.listed rowWord writes).walk v s = (y.listed rowWord writes', s') ∧
        (x.assigning writes).walk v s = (y.assigning writes', s') := by
  refine ⟨((x.assigning writes).walk v s).1, (walkWrites v writes (v.table x.table s)).1,
    ((x.assigning writes).walk v s).2, ?_, ?_⟩
  · simp only [Insert.listed, Insert.assigning, Insert.walk, walkQuery?, Query.walk, walkCtes,
      SetExpr.walk, walkRows, walkExprs, walkAssignments, walkExprs_writes,
      walkAssignments_writes, walkWrites_columns]
  · simp only [Insert.assigning, Insert.walk, walkQuery?, walkAssignments_writes]

end Walk

theorem Insert.number_forms (x : Insert) (rowWord : Bool) (writes : List (Ident × Expr)) :
    ∃ (y : Insert Nat) (writes' : List (Ident × Expr Nat)),
      (Statement.insert (x.listed rowWord writes)).number.1 =
          .insert (y.listed rowWord writes') ∧
        (Statement.insert (x.assigning writes)).number.1 = .insert (y.assigning writes') := by
  obtain ⟨y, writes', _, listed, assigning⟩ := x.walk_forms numbering rowWord writes 0
  refine ⟨y, writes', ?_, ?_⟩
  · exact congrArg (fun r => Statement.insert r.1) listed
  · exact congrArg (fun r => Statement.insert r.1) assigning

theorem Insert.countAnonymous_forms (x : Insert) (rowWord : Bool) (writes : List (Ident × Expr)) :
    (Statement.insert (x.assigning writes)).countAnonymous =
      (Statement.insert (x.listed rowWord writes)).countAnonymous := by
  obtain ⟨y, writes', _, listed, assigning⟩ :=
    x.walk_forms (counting : Visitor Empty Empty Nat) rowWord writes 0
  exact (congrArg Prod.snd assigning).trans (congrArg Prod.snd listed).symm

end Sql

open Sql Seal

namespace Sealing

variable (g : Sealing)

/-- A single row fills the slots that its assignments fill. -/
theorem slots_forms (writes : List (Ident × Expr Nat)) :
    g.columnSlots (writes.map Prod.fst) [writes.map Prod.snd] =
      (writes.map Assignment.simple).map g.assignmentSlot? := by
  refine List.ext_getElem (by simp [columnSlots]) fun i _ inside => ?_
  have short : i < writes.length := by simpa using inside
  simp [columnSlots, columnSlot?, isSupportedAt, short, assignmentSlot?, assigned?,
    Assignment.simple]

theorem isDerived_forms (writes : List (Ident × Expr Nat)) :
    (writes.map Assignment.simple).any g.isDerivedTarget =
      (writes.map Prod.fst).any g.active.isDerived := by
  rw [List.any_map, List.any_map]
  rfl

/-- A row and the assignments of its values are expanded alike, and the column list as they are. -/
theorem expand_forms (writes : List (Ident × Expr Nat)) (slots : List (Option SensitiveColumn)) :
    Tandem (fun row assignments => ∃ writes' : List (Ident × Expr Nat),
        row = writes'.map Prod.snd ∧ assignments = writes'.map Assignment.simple ∧
          g.expandColumns (writes.map Prod.fst) slots = writes'.map Prod.fst)
      (g.sealRow slots (writes.map Prod.snd))
      (expand g.options.writeSource g.sealAssignment
        ((writes.map Assignment.simple).zip slots)) := by
  induction writes generalizing slots with
  | nil => exact .pure ⟨[], rfl, rfl, rfl⟩
  | cons write writes ih =>
    obtain ⟨ident, e⟩ := write
    cases slots with
    | nil => exact .pure ⟨[], rfl, rfl, rfl⟩
    | cons slot slots =>
      cases slot with
      | none =>
        refine (ih slots).bind ?_
        rintro _ _ ⟨rest, rfl, rfl, columns⟩
        exact .pure ⟨(ident, e) :: rest, rfl, rfl, congrArg (ident :: ·) columns⟩
      | some c =>
        have pair : Tandem (fun p q => q = (Assignment.simple ((renamedPair c ident).1, p.1),
              Assignment.simple ((renamedPair c ident).2, p.2)))
            (g.sealValue e) (g.sealAssignment c (Assignment.simple (ident, e))) := by
          rw [← bind_pure (g.sealValue e)]
          refine Tandem.bind (g.sealValue_steady e) ?_
          rintro p _ rfl
          exact .pure rfl
        refine pair.bind ?_
        rintro ⟨target, index⟩ _ rfl
        refine (ih slots).bind ?_
        rintro _ _ ⟨rest, rfl, rfl, columns⟩
        let sealed := ((renamedPair c ident).1, target) :: ((renamedPair c ident).2, index) :: rest
        have names : g.expandColumns ((ident :: writes.map Prod.fst)) (some c :: slots) =
            if g.options.writeSource then ident :: sealed.map Prod.fst
            else sealed.map Prod.fst := by
          simp only [sealed, List.map_cons, ← columns]
          rfl
        cases keep : g.options.writeSource with
        | true =>
          refine .pure ⟨(ident, e) :: sealed, rfl, rfl, ?_⟩
          rw [List.map_cons, names, keep]
          rfl
        | false =>
          refine .pure ⟨sealed, rfl, rfl, ?_⟩
          rw [List.map_cons, names, keep]
          rfl

/-- Both forms of one INSERT, with the same pairs. -/
def SameWrites (y : Insert Nat) (rowWord : Bool) (x x' : Insert Nat) : Prop :=
  ∃ writes, x = y.listed rowWord writes ∧ x' = y.assigning writes

theorem sealInsertRows_forms (y : Insert Nat) (rowWord : Bool) (writes : List (Ident × Expr Nat)) :
    Tandem (fun x assignments => SameWrites y rowWord x { y.assigning [] with
        assignments := assignments })
      (g.sealInsertRows (y.listed rowWord writes) [writes.map Prod.snd])
      (do
        let slots ← (writes.map Assignment.simple).mapM g.assignmentSlot
        expand g.options.writeSource g.sealAssignment
          ((writes.map Assignment.simple).zip slots)) := by
  have slots : Tandem Eq _ _ :=
    .of_idles (columnSlots_idles _ _) (assignmentSlots_idles _) (g.slots_forms writes)
  refine slots.bind ?_
  rintro slots _ rfl
  rw [List.mapM_cons, List.mapM_nil, bind_assoc, ← bind_pure (expand _ _ _)]
  refine (g.expand_forms writes slots).bind ?_
  rintro _ _ ⟨writes', rfl, rfl, columns⟩
  refine .pure ⟨writes', ?_, rfl⟩
  simp only [Insert.listed, columns, withRows]

theorem sealAssignments_underived {writes : List (Ident × Expr Nat)}
    (underived : (writes.map Prod.fst).any g.active.isDerived = false) :
    g.sealAssignments (writes.map Assignment.simple) = (do
        let slots ← (writes.map Assignment.simple).mapM g.assignmentSlot
        expand g.options.writeSource g.sealAssignment
          ((writes.map Assignment.simple).zip slots)) := by
  rw [← isDerived_forms] at underived
  rw [sealAssignments, if_neg (ne_true_of_eq_false underived)]

theorem sealAssignments_plain {writes : List (Ident × Expr Nat)}
    (plain : ∀ ident ∈ writes.map Prod.fst, g.active.get? ident = none) :
    (g.sealAssignments (writes.map Assignment.simple)).Idles (writes.map Assignment.simple) := by
  refine sealAssignments_idles (.inr fun a member => .inl ?_)
  obtain ⟨_, listed, rfl⟩ := List.mem_map.mp member
  obtain ⟨write, here, rfl⟩ := List.mem_map.mp listed
  exact plain write.1 (List.mem_map_of_mem here)

/-- Both forms of an INSERT are sealed to both forms of one INSERT, or fail alike. -/
theorem sealInsert_forms (y : Insert Nat) (rowWord : Bool) (writes : List (Ident × Expr Nat)) :
    Tandem (SameWrites y rowWord) (g.sealInsert (y.listed rowWord writes))
      (g.sealInsert (y.assigning writes)) := by
  have kept : SameWrites y rowWord (y.listed rowWord writes) (y.assigning writes) :=
    ⟨writes, rfl, rfl⟩
  have assigning : g.sealInsert (y.assigning writes) = (do
      let assignments ← g.sealAssignments (writes.map Assignment.simple)
      return { y.assigning [] with assignments := assignments }) := rfl
  have columns : (y.listed rowWord writes).columns = writes.map Prod.fst := rfl
  have source : rowsOf? (y.listed rowWord writes).source = some [writes.map Prod.snd] := rfl
  rw [assigning]
  unfold sealInsert
  split
  · rename_i bare
    obtain rfl : writes = [] := by simpa [columns] using bare
    have nothing : (g.sealAssignments []).Idles [] :=
      sealAssignments_idles (.inr fun a member => absurd member List.not_mem_nil)
    exact .of_idles (nothing.bind (.pure _)) (nothing.bind (.pure _)) kept
  · rename_i listed
    rw [columns] at listed ⊢
    split
    · rename_i derived
      have unsealed : (g.sealAssignments (writes.map Assignment.simple)).Idles
          (writes.map Assignment.simple) := by
        rw [sealAssignments, if_pos (g.isDerived_forms writes ▸ derived)]
        exact (Idles.note .assignmentsDerived).bind (.pure _)
      exact .of_idles ((Idles.note .insertDerived).bind (.pure _)) (unsealed.bind (.pure _)) kept
    · rename_i underived
      split
      · rename_i plain
        have plain : ∀ ident ∈ writes.map Prod.fst, g.active.get? ident = none :=
          fun ident member => Option.isNone_iff_eq_none.mp (List.all_eq_true.mp plain ident member)
        exact .of_idles (.pure _) ((g.sealAssignments_plain plain).bind (.pure _)) kept
      · simp only [source]
        split
        · rename_i narrow
          simp at narrow
        · rw [g.sealAssignments_underived (Bool.not_eq_true _ ▸ underived),
            ← bind_pure (g.sealInsertRows _ _)]
          exact (g.sealInsertRows_forms y rowWord writes).bind fun x assignments same =>
            .pure same

end Sealing

/-- An INSERT of one row with a column list and the INSERT that assigns the same values to the same
columns either both fail with the same error, or both succeed: they then write the same pairs of
column and value, each in its form, and bind them by the same mappings to the same values. -/
theorem insert_forms_agree (active : ActiveColumns) (handler : Handler) (options : SealOptions)
    (resultMaps : List ResultMap) (bound : BoundStatement) (supply : Supply) (x : Insert)
    (rowWord : Bool) (writes : List (Ident × Expr)) :
    let g : Sealing := ⟨active, handler, options, resultMaps, bound.mappings⟩
    let listed : Statement := .insert (x.listed rowWord writes)
    let assigning : Statement := .insert (x.assigning writes)
    let result := (sealBound active handler options resultMaps bound listed supply).1
    let result' := (sealBound active handler options resultMaps bound assigning supply).1
    (∃ e, result = .error e ∧ result' = .error e) ∨
      ∃ (sealed sealed' : Sealed) (y : Insert Nat) (writes' : List (Ident × Expr Nat)),
        result = .ok sealed ∧ result' = .ok sealed' ∧
        Sealing.Emits g bound supply listed (.insert (y.listed rowWord writes')) sealed ∧
        Sealing.Emits g bound supply assigning (.insert (y.assigning writes')) sealed' ∧
        sealed'.bound.mappings = sealed.bound.mappings ∧
        sealed'.bound.object = sealed.bound.object ∧
        sealed'.bound.additional = sealed.bound.additional := by
  intro g listed assigning result result'
  obtain ⟨y, ws, numbered, numbered'⟩ := x.number_forms rowWord writes
  have tandem : Tandem (fun tree tree' => ∃ writes', tree = .insert (y.listed rowWord writes') ∧
      tree' = .insert (y.assigning writes'))
      (g.sealTree listed.number.1) (g.sealTree assigning.number.1) := by
    rw [numbered, numbered']
    refine (g.sealInsert_forms y rowWord ws).bind ?_
    rintro _ _ ⟨writes', rfl, rfl⟩
    exact .pure ⟨writes', rfl, rfl⟩
  rcases sealBound_tandem (x.countAnonymous_forms rowWord writes) tandem with failed | succeeded
  · exact .inl failed
  · obtain ⟨_, _, sealed, sealed', ok, ok', emits, emits', ⟨writes', rfl, rfl⟩, same⟩ := succeeded
    refine .inr ⟨sealed, sealed', y, writes', ok, ok', emits, emits', ?_, ?_, ?_⟩
    all_goals rw [same]

end SealedColumns

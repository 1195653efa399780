import SealedColumns.Proofs.Requests

/-!
A pass ends as the row of its requests does: it fails with the same error, or both succeed and leave
the same parameters and the same supply. Everything else that a pass does cannot fail.
-/
namespace SealedColumns

open Sql Seal

namespace Sealing

variable {α β γ : Type} {g : Sealing}

def Asks (g : Sealing) (m : Seal α) (rs : List Request) : Prop :=
  Tandem (fun _ _ => True) m (forM rs g.perform)

namespace Asks

variable {m : Seal α} {f : α → Seal β} {rs rs' : List Request}

theorem pure (a : α) : g.Asks (Pure.pure a : Seal α) [] := Tandem.pure trivial

theorem bind (first : g.Asks m rs) (second : ∀ a, g.Asks (f a) rs') :
    g.Asks (m >>= f) (rs ++ rs') := by
  rw [Asks, List.forM_append]
  exact Tandem.bind first fun a _ _ => second a

theorem map (first : g.Asks m rs) (f : α → β) : g.Asks (m >>= fun a => Pure.pure (f a)) rs := by
  rw [← List.append_nil rs]
  exact first.bind fun a => pure (f a)

theorem mapM {f : α → Seal β} {requests : α → List Request} {xs : List α}
    (each : ∀ x ∈ xs, g.Asks (f x) (requests x)) : g.Asks (xs.mapM f) (xs.flatMap requests) := by
  induction xs with
  | nil => exact pure []
  | cons x xs ih =>
    rw [List.mapM_cons, List.flatMap_cons]
    have rest := ih fun x later => each x (List.mem_cons_of_mem _ later)
    exact (each x List.mem_cons_self).bind fun y => rest.map (y :: ·)

/-- A step that leaves parameters and supply asks for nothing. -/
theorem still (runs : ∀ d, ∃ a d', m.Gives d a d' ∧ d.Alike d') : g.Asks m [] := by
  intro d d' alike
  obtain ⟨a, after, run, same⟩ := runs d
  rw [Gives] at run
  rw [run]
  exact .gives trivial
    ⟨alike.parameters.trans same.parameters.symm, alike.supply.trans same.supply.symm⟩

theorem of_idles {a : α} (idle : m.Idles a) : g.Asks m [] := still fun d =>
  have ⟨_, run⟩ := idle d
  ⟨a, _, run, rfl, rfl⟩

theorem after_idle {a : α} (idle : m.Idles a) (next : g.Asks (f a) rs) :
    g.Asks (m >>= f) rs := by
  intro d d' alike
  obtain ⟨log, run⟩ := idle d
  rw [Gives] at run
  change Agree _ (ExceptT.bindCont f (m.run d).1 (m.run d).2) _
  rw [run]
  exact next { d with log := log } d' ⟨alike.parameters, alike.supply⟩

/-- What a request performs, whatever is made of the result. -/
theorem single {r : Request} (performed : g.perform r = m >>= fun _ => Pure.pure ())
    (steady : Steady m) (f : α → β) : g.Asks (m >>= fun a => Pure.pure (f a)) [r] := by
  rw [Asks, List.forM_cons, List.forM_nil, performed, bind_assoc]
  exact Tandem.bind steady fun _ _ _ => .pure trivial

end Asks

section Filters

theorem indexAt_asks (x : Place × Value Nat) :
    g.Asks (g.indexAt x) (Request.ofValue? x.2).toList := by
  refine Asks.map ?_ fun v => (x.1, Expr.value v)
  unfold indexValue Request.ofValue?
  cases Operand.ofValue? x.2 with
  | none => exact .pure _
  | some operand =>
    cases operand with
    | placeholder n =>
      exact .single (by simp [perform]) (g.indexPlaceholder_steady n) fun _ => x.2
    | literal plain => exact .single rfl (g.index_steady plain) Value.string
    | null => exact .single (m := Pure.pure ()) rfl (.pure _) fun _ => x.2

theorem sealPredicate_asks (scope : List String) (e : Expr Nat) :
    g.Asks (g.sealPredicate scope e)
      (((g.indexedAt scope e).map Prod.snd).filterMap Request.ofValue?) := by
  rw [sealPredicate_eq, map_eq_pure_bind, List.filterMap_map, List.filterMap_eq_flatMap_toList]
  exact (Asks.mapM fun x _ => indexAt_asks x).map _

theorem sealFilter_asks (scope : List String) (filter : Option (Expr Nat)) :
    g.Asks (g.sealFilter scope filter) (g.filterRequests scope filter) := by
  unfold sealFilter filterRequests
  split
  · exact .pure none
  · split
    · exact (sealPredicate_asks scope _).map _
    · exact .pure _

end Filters

section Queries

theorem sealItem_asks (scope : List String) (item : SelectItem Nat) :
    g.Asks (g.sealItem scope item) [] := by
  unfold sealItem
  split
  · refine Asks.map (.still fun d => ?_) _
    exact ⟨(), _, (Seal.gives_modify _ _ _ _).mpr rfl, rfl, rfl⟩
  · exact .pure item

theorem sealProjection_asks (scope : List String) (items : List (SelectItem Nat)) :
    g.Asks (g.sealProjection scope items) [] := by
  unfold sealProjection
  split
  · have nothing : items.flatMap (fun _ => ([] : List Request)) = [] := by simp
    exact nothing ▸ Asks.mapM fun item _ => sealItem_asks scope item
  · exact .pure items

theorem selectsRequests_append (ss ss' : List (Select Nat)) :
    g.selectsRequests (ss ++ ss') = g.selectsRequests ss ++ g.selectsRequests ss' :=
  List.flatMap_append

mutual

theorem sealQuery_asks : ∀ q : Query Nat, g.Asks (g.sealQuery q) (g.selectsRequests q.selects)
  | ⟨_, ctes, body, _⟩ => by
    rw [Query.selects, selectsRequests_append]
    exact (sealCtes_asks ctes).bind fun _ => (sealBody_asks body).map _

theorem sealCtes_asks : ∀ ctes : List (Cte Nat),
    g.Asks (g.sealCtes ctes) (g.selectsRequests (ctesSelects ctes))
  | [] => .pure _
  | ⟨_, _, _, query⟩ :: ctes => by
    rw [ctesSelects, selectsRequests_append]
    exact (sealQuery_asks query).bind fun _ => (sealCtes_asks ctes).map _

theorem sealBody_asks : ∀ body : SetExpr Nat,
    g.Asks (g.sealBody body) (g.selectsRequests body.selects)
  | .select ⟨_, _, projection, sources, filter, _⟩ => by
    have single : ∀ s : Select Nat,
        g.selectsRequests [s] = g.filterRequests (scopeOf s.sources) s.filter :=
      fun s => List.append_nil _
    rw [SetExpr.selects, selectsRequests_append, single]
    refine Asks.map ?_ SetExpr.select
    exact (sealProjection_asks _ projection).bind fun _ =>
      (sealSources_asks sources).bind fun _ => (sealFilter_asks _ filter).map _
  | .query q => (sealQuery_asks q).map _
  | .operation _ _ l r => by
    rw [SetExpr.selects, selectsRequests_append]
    exact (sealBody_asks l).bind fun _ => (sealBody_asks r).map _
  | .values _ _ | .insert _ | .update _ | .delete _ => .pure _

theorem sealSources_asks : ∀ items : List (FromItem Nat),
    g.Asks (g.sealSources items) (g.selectsRequests (sourcesSelects items))
  | [] => .pure _
  | ⟨relation, joins⟩ :: items => by
    rw [sourcesSelects, selectsRequests_append, selectsRequests_append]
    refine Asks.bind ?_ fun _ => (sealSources_asks items).map _
    exact (sealFactor_asks relation).bind fun _ => (sealJoins_asks joins).map _

theorem sealJoins_asks : ∀ joins : List (Join Nat),
    g.Asks (g.sealJoins joins) (g.selectsRequests (joinsSelects joins))
  | [] => .pure _
  | ⟨_, _, relation, _, _⟩ :: joins => by
    rw [joinsSelects, selectsRequests_append]
    exact (sealFactor_asks relation).bind fun _ => (sealJoins_asks joins).map _

theorem sealFactor_asks : ∀ factor : TableFactor Nat,
    g.Asks (g.sealFactor factor) (g.selectsRequests factor.selects)
  | .table _ _ _ _ => .pure _
  | .derived _ query _ => (sealQuery_asks query).map _
  | .nested ⟨relation, joins⟩ _ => by
    rw [TableFactor.selects, selectsRequests_append]
    refine Asks.map ?_ fun item => TableFactor.nested item _
    exact (sealFactor_asks relation).bind fun _ => (sealJoins_asks joins).map _

end

end Queries

section Writes

theorem sealValue_asks {e : Expr Nat} {operand : Operand}
    (known : Operand.ofExpr? e = some operand) (f : Expr Nat × Expr Nat → β) :
    g.Asks (g.sealValue e >>= fun pair => pure (f pair)) [.pair operand] := by
  simp only [sealValue, known]
  exact .single rfl (g.sealOperand_steady operand) f

theorem expand_asks {value : α → Expr Nat} {derive : γ → α → Seal (α × α)} (keep : Bool)
    {items : List (α × Option γ)}
    (each : ∀ item slot, (item, some slot) ∈ items →
      g.Asks (derive slot item) (Request.ofWritten? value (item, some slot)).toList) :
    g.Asks (expand keep derive items) (items.filterMap (Request.ofWritten? value)) := by
  induction items with
  | nil => exact .pure []
  | cons x items ih =>
    obtain ⟨item, slot⟩ := x
    have rest := ih fun item slot later => each item slot (List.mem_cons_of_mem _ later)
    cases slot with
    | none => exact rest.map _
    | some slot =>
      rw [List.filterMap_eq_flatMap_toList, List.flatMap_cons, ← List.filterMap_eq_flatMap_toList]
      exact (each item slot List.mem_cons_self).bind fun pair => rest.map _

theorem sealAssignments_asks (as : List (Assignment Nat)) :
    g.Asks (g.sealAssignments as) (g.assignmentsRequests as) := by
  unfold sealAssignments assignmentsRequests
  split
  · exact .of_idles ((Idles.note .assignmentsDerived).bind (.pure as))
  · refine .after_idle (assignmentSlots_idles as) (expand_asks _ fun a c member => ?_)
    rw [← List.map_prod_left_eq_zip] at member
    obtain ⟨_, _, same⟩ := List.mem_map.mp member
    obtain ⟨rfl, slot⟩ := Prod.mk.inj same
    have supported := (Option.filter_eq_some_iff.mp slot).2
    obtain ⟨operand, known⟩ := Option.isSome_iff_exists.mp supported
    rw [Request.ofWritten?, known, Option.map_some, Option.toList_some]
    exact sealValue_asks known _

/-- A slot is filled only if every row has a value there that is understood. -/
theorem supported_of_slot {columns : List Ident} {rows : List (List (Expr Nat))}
    {row : List (Expr Nat)} (listed : row ∈ rows) {e : Expr Nat} {c : SensitiveColumn}
    (member : (e, some c) ∈ row.zip (g.columnSlots columns rows)) :
    ∃ operand, Operand.ofExpr? e = some operand := by
  obtain ⟨i, here⟩ := List.mem_iff_getElem?.mp member
  obtain ⟨value, slot⟩ := List.getElem?_zip_eq_some.mp here
  rw [columnSlots, List.getElem?_map, Option.map_eq_some_iff] at slot
  obtain ⟨⟨ident, j⟩, place, slot⟩ := slot
  rw [List.getElem?_zipIdx, Nat.zero_add, Option.map_eq_some_iff] at place
  obtain ⟨_, -, same⟩ := place
  obtain ⟨-, rfl⟩ := Prod.mk.inj same
  have supported := List.all_eq_true.mp (Option.filter_eq_some_iff.mp slot).2 row listed
  rw [value, Option.bind_some] at supported
  exact Option.isSome_iff_exists.mp supported

theorem sealRow_asks {columns : List Ident} {rows : List (List (Expr Nat))}
    {row : List (Expr Nat)} (listed : row ∈ rows) :
    g.Asks (g.sealRow (g.columnSlots columns rows) row)
      ((row.zip (g.columnSlots columns rows)).filterMap (Request.ofWritten? id)) := by
  refine expand_asks _ fun e c member => ?_
  obtain ⟨operand, known⟩ := supported_of_slot listed member
  rw [Request.ofWritten?, id_eq, known, Option.map_some, Option.toList_some,
    ← bind_pure (g.sealValue e)]
  exact sealValue_asks known id

theorem sealInsertRows_asks (x : Insert Nat) (rows : List (List (Expr Nat))) :
    g.Asks (g.sealInsertRows x rows) (g.rowsRequests x.columns rows) := by
  refine .after_idle (columnSlots_idles x.columns rows) (Asks.map ?_ _)
  rw [rowsRequests]
  exact Asks.mapM fun row listed => sealRow_asks listed

/-- Without a sensitive column in the list no slot is filled. -/
theorem rowsRequests_plain {columns : List Ident}
    (plain : ∀ ident ∈ columns, g.active.get? ident = none) (rows : List (List (Expr Nat))) :
    g.rowsRequests columns rows = [] := by
  refine List.flatMap_eq_nil_iff.mpr fun row _ => List.filterMap_eq_nil_iff.mpr ?_
  rintro ⟨e, slot⟩ member
  obtain ⟨⟨ident, position⟩, listed, same⟩ := List.mem_map.mp (List.of_mem_zip member).2
  have missing := plain ident (List.fst_mem_of_mem_zipIdx listed)
  replace same : g.columnSlot? rows position ident = slot := same
  rw [columnSlot?, missing, Option.filter_none] at same
  rw [← same, Request.ofWritten?]

/-- The ways that an INSERT can go: by its assignments, left as it is, or row by row. Rows are
sealed only if each one is as wide as the column list. -/
inductive InsertPass (g : Sealing) (x : Insert Nat) : Prop where
  | assigned : x.columns = [] →
      g.sealInsert x = (do
        let assignments ← g.sealAssignments x.assignments
        return { x with assignments := assignments }) →
      g.insertRequests x = g.assignmentsRequests x.assignments → InsertPass g x
  | left : x.columns ≠ [] → (g.sealInsert x).Idles x → g.insertRequests x = [] → InsertPass g x
  | rows {rows : List (List (Expr Nat))} : x.columns ≠ [] → rowsOf? x.source = some rows →
      (∀ row ∈ rows, row.length = x.columns.length) → g.sealInsert x = g.sealInsertRows x rows →
      g.insertRequests x = g.rowsRequests x.columns rows → InsertPass g x

theorem sealInsert_pass (x : Insert Nat) : g.InsertPass x := by
  by_cases bare : x.columns = []
  · have empty := List.isEmpty_iff.mpr bare
    exact .assigned bare (by rw [sealInsert, if_pos empty]) (by rw [insertRequests, if_pos empty])
  have listed : ¬ x.columns.isEmpty = true := fun empty => bare (List.isEmpty_iff.mp empty)
  by_cases derived : x.columns.any g.active.isDerived = true
  · refine .left bare ?_ (by rw [insertRequests, if_neg listed, if_pos derived])
    rw [sealInsert, if_neg listed, if_pos derived]
    exact (Idles.note .insertDerived).bind (.pure x)
  have requests : g.insertRequests x = g.sourceRequests x.columns x.source := by
    rw [insertRequests, if_neg listed, if_neg derived]
  by_cases plain : (x.columns.all fun ident => (g.active.get? ident).isNone) = true
  · refine .left bare ?_ ?_
    · rw [sealInsert, if_neg listed, if_neg derived, if_pos plain]
      exact .pure x
    · have unlisted : ∀ ident ∈ x.columns, g.active.get? ident = none := fun ident member =>
        Option.isNone_iff_eq_none.mp (List.all_eq_true.mp plain ident member)
      rw [requests, sourceRequests]
      split
      · split
        · rfl
        · exact rowsRequests_plain unlisted _
      · rfl
  cases found : rowsOf? x.source with
  | none =>
    refine .left bare ?_ (by rw [requests, sourceRequests, found])
    rw [sealInsert, if_neg listed, if_neg derived, if_neg plain, found]
    exact (Idles.note .insertSource).bind (.pure x)
  | some rows =>
    by_cases narrow : (rows.any fun row => row.length != x.columns.length) = true
    · refine .left bare ?_ (by simp only [requests, sourceRequests, found, if_pos narrow])
      rw [sealInsert, if_neg listed, if_neg derived, if_neg plain, found]
      simp only [if_pos narrow]
      exact (Idles.note .insertWidth).bind (.pure x)
    · refine .rows bare found ?_ ?_ (by simp only [requests, sourceRequests, found, if_neg narrow])
      · simpa only [List.any_eq_true, bne_iff_ne, not_exists, not_and, Decidable.not_not] using
          narrow
      · rw [sealInsert, if_neg listed, if_neg derived, if_neg plain, found]
        simp only [if_neg narrow]

theorem sealInsert_asks (x : Insert Nat) : g.Asks (g.sealInsert x) (g.insertRequests x) := by
  cases g.sealInsert_pass x with
  | assigned _ run requests =>
    rw [run, requests]
    exact (sealAssignments_asks _).map _
  | left _ idle requests =>
    rw [requests]
    exact .of_idles idle
  | rows _ _ _ run requests =>
    rw [run, requests]
    exact sealInsertRows_asks x _

end Writes

theorem sealTree_asks (t : Statement Nat) : g.Asks (g.sealTree t) (g.requests t) := by
  cases t with
  | insert x => exact (sealInsert_asks x).map _
  | update x =>
    exact (sealAssignments_asks x.assignments).bind fun _ => (sealFilter_asks [] x.filter).map _
  | delete x => exact (sealFilter_asks [] x.filter).map _
  | query x => exact (sealQuery_asks x).map _
  | explain _ _ | other _ _ _ _ =>
    exact .of_idles ((Idles.note .statementPassed).bind (.pure _))

end Sealing

end SealedColumns

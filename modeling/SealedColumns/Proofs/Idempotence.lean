import SealedColumns.Proofs.Settled

/-!
Sealing is idempotent: the tree that a pass emits is settled, so a second pass over it changes
neither the tree nor its parameters, asks the handler for nothing and records no alias.
-/
namespace SealedColumns

open Sql

theorem ActiveColumns.isDerived_target {active : ActiveColumns} {c : SensitiveColumn}
    (member : c ∈ active.columns) (ident : Ident) :
    active.isDerived { ident with text := c.target } = true :=
  List.any_eq_true.mpr ⟨c, member, by simp [SensitiveColumn.derives, Ident.normalized]⟩

theorem ActiveColumns.isDerived_index {active : ActiveColumns} {c : SensitiveColumn}
    (member : c ∈ active.columns) (ident : Ident) :
    active.isDerived { ident with text := c.index } = true :=
  List.any_eq_true.mpr ⟨c, member, by simp [SensitiveColumn.derives, Ident.normalized]⟩

theorem ActiveColumns.mem_of_getIn? {active : ActiveColumns} {scope : List String} {ident : Ident}
    {c : SensitiveColumn} (found : active.getIn? scope ident = some c) : c ∈ active.columns := by
  rcases getIn?_eq_some found with ⟨member, -, -⟩ | ⟨-, found⟩
  · exact member
  · exact (mem_of_get? found).1

section Tables

variable {projects : List (FromItem Nat) → List (SelectItem Nat) → List (SelectItem Nat) → Prop}
  {filters : List (FromItem Nat) → Option (Expr Nat) → Option (Expr Nat) → Prop}

mutual

theorem FactorSelectwise.baseTables : ∀ {factor factor' : TableFactor Nat},
    FactorSelectwise projects filters factor factor' → factor'.baseTables = factor.baseTables
  | _, _, .table => rfl
  | _, _, .derived _ => rfl
  | _, _, .nested relation joins => by
    simp only [TableFactor.baseTables, FromItem.baseTables, relation.baseTables, joins.joinTables]

theorem JoinsSelectwise.joinTables : ∀ {joins joins' : List (Join Nat)},
    JoinsSelectwise projects filters joins joins' → Sql.joinTables joins' = Sql.joinTables joins
  | _, _, .nil => rfl
  | _, _, .cons relation joins => by
    simp only [Sql.joinTables, relation.baseTables, joins.joinTables]

end

theorem SourcesSelectwise.baseTables {items items' : List (FromItem Nat)}
    (run : SourcesSelectwise projects filters items items') :
    Sql.baseTables items' = Sql.baseTables items := by
  cases run with
  | nil => rfl
  | cons relation joins items =>
    have rest := items.baseTables
    simp only [Sql.baseTables] at rest
    simp only [Sql.baseTables, List.flatMap_cons, FromItem.baseTables, relation.baseTables,
      joins.joinTables, rest]

theorem SourcesSelectwise.scopeOf {items items' : List (FromItem Nat)}
    (run : SourcesSelectwise projects filters items items') :
    Sql.scopeOf items' = Sql.scopeOf items := by
  rw [Sql.scopeOf, run.baseTables, Sql.scopeOf]

end Tables

theorem Spliced.exists_pair {α β : Type} {keep : Bool} {pair : β → α → α → α → Prop}
    {items : List (α × Option β)} {out : List α} (spliced : Spliced keep pair items out)
    {item : α} {slot : β} (member : (item, some slot) ∈ items) :
    ∃ target index, pair slot item target index ∧ target ∈ out := by
  induction spliced with
  | nil => cases member
  | kept _ ih =>
    rcases List.mem_cons.mp member with same | member
    · cases same
    · obtain ⟨target, index, here, listed⟩ := ih member
      exact ⟨target, index, here, List.mem_cons_of_mem _ listed⟩
  | @pair slot item target index _ _ here _ ih =>
    rcases List.mem_cons.mp member with same | member
    · cases same
      exact ⟨target, index, here, List.mem_append_right _ List.mem_cons_self⟩
    · obtain ⟨target, index, here, listed⟩ := ih member
      refine ⟨target, index, here, List.mem_append_right _ ?_⟩
      exact List.mem_cons_of_mem _ (List.mem_cons_of_mem _ listed)

namespace Sealing

variable {g : Sealing}

theorem sensitive?_of_isDerived {scope : List String} {qualifier : List Ident} {name : Ident}
    (derived : g.active.isDerived name = true) :
    g.sensitive? scope (.column qualifier name) = none := by
  simp [sensitive?, Expr.columnName?, derived]

section Predicates

variable {scope : List String}

theorem readIndex_idle (qualifier : List Ident) (name : Ident) :
    ∀ reached ∈ (g.readIndex scope (.column qualifier name)).reached,
      g.sensitive? scope (.column [] reached) = none := by
  unfold readIndex
  split
  · rename_i c sensitive
    obtain ⟨_, _, same, stands⟩ := sensitive?_eq_some.mp sensitive
    cases same
    intro reached member
    rw [List.mem_singleton.mp member]
    exact sensitive?_of_isDerived
      (ActiveColumns.isDerived_index (ActiveColumns.mem_of_getIn? stands.2) name)
  · rename_i plain
    intro reached member
    rw [List.mem_singleton.mp member]
    exact plain

-- A sealed predicate is met again in its indexed form, in which the operands hold no names that
-- are looked up in another way.
mutual

theorem PredicateSealed.idle : ∀ {e e' : Expr Nat}, g.PredicateSealed scope e e' →
    ∀ name ∈ e'.reached, g.sensitive? scope (.column [] name) = none
  | _, _, .nested inner | _, _, .unary inner | _, _, .isNull inner | _, _, .inQuery inner
  | _, _, .argument inner | _, _, .pattern _ inner | _, _, .inList _ inner => by
    simp only [Expr.reached]
    exact inner.idle
  | _, _, .binary _ _ left right => by
    simp only [Expr.reached, List.forall_mem_append]
    exact ⟨left.idle, right.idle⟩
  | _, _, .call args => by
    simp only [Expr.reached]
    exact args.idle
  | _, _, .column => readIndex_idle _ _
  | e, _, .kept closed => by
    have none : e.reached = [] := by cases e <;> first | rfl | cases closed
    rw [none]
    exact fun _ member => absurd member List.not_mem_nil

theorem ArgumentsSealed.idle : ∀ {es es' : List (Expr Nat)}, g.ArgumentsSealed scope es es' →
    ∀ name ∈ reachedAll es', g.sensitive? scope (.column [] name) = none
  | _, _, .nil => fun _ member => absurd member List.not_mem_nil
  | _, _, .cons head tail => by
    simp only [reachedAll, List.forall_mem_append]
    exact ⟨head.idle, tail.idle⟩

end

theorem FilterSealed.idle {filter filter' : Option (Expr Nat)}
    (run : g.FilterSealed scope filter filter') :
    g.SubjectsIdle (filterSubjects scope filter') := by
  intro overwrite subject member
  cases run with
  | none => cases member
  | some _ inner =>
    rw [filterSubjects, Option.toList_some, List.flatMap_singleton] at member
    obtain ⟨name, reached, rfl⟩ := List.mem_map.mp member
    exact inner.idle name reached
  | kept reads =>
    rw [overwrite] at reads
    cases reads

end Predicates

section Queries

theorem ItemSealed.idle {scope : List String} {item item' : SelectItem Nat}
    (overwrite : g.options.overwrite = true) (run : g.ItemSealed scope item item') :
    g.projected? scope item'.expr = none := by
  cases run with
  | @renamed c label projected _ =>
    have sensitive := (Option.filter_eq_some_iff.mp projected).1
    obtain ⟨qualifier, name, same, stands⟩ := sensitive?_eq_some.mp sensitive
    have derived := ActiveColumns.isDerived_target (ActiveColumns.mem_of_getIn? stands.2) name
    simp only [same, Expr.renameColumn, projected?, sensitive?_of_isDerived derived,
      Option.filter_none]
  | kept unprojected => exact unprojected overwrite

theorem ProjectionSealed.idle {sources : List (FromItem Nat)} {items items' : List (SelectItem Nat)}
    (run : g.ProjectionSealed sources items items') :
    g.SubjectsIdle (itemSubjects (scopeOf sources) items') := by
  intro overwrite subject member
  obtain ⟨⟨e, label⟩, listed, member⟩ := List.mem_flatMap.mp member
  obtain ⟨name, named, rfl⟩ := List.mem_map.mp member
  have idle : ∀ item' ∈ items', g.projected? (scopeOf sources) item'.expr = none := by
    intro item' listed
    obtain ⟨item, -, sealed⟩ := exists_of_mem_right run listed
    exact sealed.idle overwrite
  cases e with
  | column qualifier name' =>
    cases List.mem_singleton.mp named
    exact idle _ listed
  | _ => cases named

mutual

theorem selectwise_idle : ∀ {q q' : Query Nat},
    Selectwise g.ProjectionSealed g.SelectFilterSealed q q' → g.SubjectsIdle q'.subjects
  | _, _, .query ctes body => (ctesSelectwise_idle ctes).append (bodySelectwise_idle body)

theorem ctesSelectwise_idle : ∀ {ctes ctes' : List (Cte Nat)},
    CtesSelectwise g.ProjectionSealed g.SelectFilterSealed ctes ctes' →
      g.SubjectsIdle (ctesSubjects ctes')
  | _, _, .nil => .nil
  | _, _, .cons query ctes => (selectwise_idle query).append (ctesSelectwise_idle ctes)

theorem bodySelectwise_idle : ∀ {body body' : SetExpr Nat},
    BodySelectwise g.ProjectionSealed g.SelectFilterSealed body body' →
      g.SubjectsIdle body'.subjects
  | _, _, .select projection sources filter => by
    have scope := sources.scopeOf
    simp only [SetExpr.subjects, Select.subjects, scope]
    exact (projection.idle.append (sourcesSelectwise_idle sources)).append filter.idle
  | _, _, .query query => selectwise_idle query
  | _, _, .operation left right => (bodySelectwise_idle left).append (bodySelectwise_idle right)
  | body, _, .kept closed => by
    have none : body.subjects = [] := by cases body <;> first | rfl | cases closed
    rw [none]
    exact .nil

theorem sourcesSelectwise_idle : ∀ {items items' : List (FromItem Nat)},
    SourcesSelectwise g.ProjectionSealed g.SelectFilterSealed items items' →
      g.SubjectsIdle (sourcesSubjects items')
  | _, _, .nil => .nil
  | _, _, .cons relation joins items =>
    ((factorSelectwise_idle relation).append (joinsSelectwise_idle joins)).append
      (sourcesSelectwise_idle items)

theorem joinsSelectwise_idle : ∀ {joins joins' : List (Join Nat)},
    JoinsSelectwise g.ProjectionSealed g.SelectFilterSealed joins joins' →
      g.SubjectsIdle (joinsSubjects joins')
  | _, _, .nil => .nil
  | _, _, .cons relation joins =>
    (factorSelectwise_idle relation).append (joinsSelectwise_idle joins)

theorem factorSelectwise_idle : ∀ {factor factor' : TableFactor Nat},
    FactorSelectwise g.ProjectionSealed g.SelectFilterSealed factor factor' →
      g.SubjectsIdle factor'.subjects
  | _, _, .table => .nil
  | _, _, .derived query => selectwise_idle query
  | _, _, .nested relation joins =>
    (factorSelectwise_idle relation).append (joinsSelectwise_idle joins)

end

end Queries

section Writes

theorem ofExpr?_isSome_of_isSealable {e : Expr Nat} (numbered : e ≠ .anonymous)
    (sealable : e.isSealable = true) : (Operand.ofExpr? e).isSome = true := by
  cases e with
  | value x =>
    cases x with
    | placeholder mark =>
      cases mark with
      | anonymous => exact absurd rfl numbered
      | numbered n => rfl
      | named text => cases sealable
    | number text long => rfl
    | string text => rfl
    | null => rfl
    | _ => cases sealable
  | _ => cases sealable

theorem AssignmentsSealed.idle {as as' : List (Assignment Nat)}
    (numbered : ∀ a ∈ as, a.value ≠ .anonymous) (run : g.AssignmentsSealed as as') :
    g.AssignmentsIdle (assignmentsProfile as') := by
  cases run with
  | derived derived =>
    obtain ⟨a, member, derived⟩ := List.any_eq_true.mp derived
    rw [isDerivedTarget_eq] at derived
    exact .inl ⟨_, List.mem_map_of_mem member, derived⟩
  | spliced _ spliced =>
    by_cases empty : ∀ a ∈ as, g.assignmentSlot? a = none
    · obtain rfl := spliced.eq_of_empty (List.forall_mem_map.mpr empty)
        (Nat.le_of_eq (List.length_map _).symm)
      refine .inr (List.forall_mem_map.mpr fun a member => ?_)
      have slot := empty a member
      rw [assignmentSlot?, assigned?_eq, Option.filter_eq_none_iff] at slot
      rw [← Bool.not_eq_true, or_iff_not_imp_right, not_not]
      intro sealable
      have understood := ofExpr?_isSome_of_isSealable (numbered a member) sealable
      exact Option.eq_none_iff_forall_ne_some.mpr fun c found => slot c found understood
    · simp only [not_forall] at empty
      obtain ⟨a, member, filled⟩ := empty
      obtain ⟨c, slot⟩ := Option.ne_none_iff_exists'.mp filled
      rw [← List.map_prod_left_eq_zip] at spliced
      obtain ⟨target, index, pair, listed⟩ :=
        spliced.exists_pair (List.mem_map.mpr ⟨a, member, by rw [slot]⟩)
      obtain ⟨ident, column, stands⟩ := assignmentSlot?_stands slot
      refine .inl ⟨_, List.mem_map_of_mem listed, ?_⟩
      rw [pair.target, Target.column?_rename c.target column, Option.any_some]
      exact ActiveColumns.isDerived_target (ActiveColumns.mem_of_get? stands).1 ident

theorem RowsSealed.eq_of_empty {slots : List (Option SensitiveColumn)}
    {rows rows' : List (List (Expr Nat))} (run : List.Forall₂ (g.RowSealed slots) rows rows')
    (empty : ∀ slot ∈ slots, slot = none) (wide : ∀ row ∈ rows, row.length ≤ slots.length) :
    rows' = rows := by
  induction run with
  | nil => rfl
  | cons head _ ih =>
    rw [Spliced.eq_of_empty head empty (wide _ List.mem_cons_self),
      ih fun row later => wide row (List.mem_cons_of_mem _ later)]

/-- A column without a slot has no entry, or a value in one of the rows that is not understood. -/
theorem rowsIdle_of_columnSlots {columns : List Ident} {rows : List (List (Expr Nat))}
    (numbered : ∀ row ∈ rows, ∀ e ∈ row, e ≠ .anonymous)
    (empty : ∀ slot ∈ g.columnSlots columns rows, slot = none) :
    g.RowsIdle columns (rowsProfile rows) := by
  intro place member
  have slot := empty _ (List.mem_map_of_mem member)
  simp only [columnSlot?, Option.filter_eq_none_iff] at slot
  rw [or_iff_not_imp_right]
  intro sealable
  have supported : isSupportedAt rows place.2 = true := by
    refine List.all_eq_true.mpr fun row listed => ?_
    have here : (row.map Expr.isSealable)[place.2]? = some true := by
      by_contra unsealable
      exact sealable ⟨_, List.mem_map_of_mem listed, unsealable⟩
    rw [List.getElem?_map, Option.map_eq_some_iff] at here
    obtain ⟨e, placed, understood⟩ := here
    rw [placed, Option.bind_some]
    exact ofExpr?_isSome_of_isSealable
      (numbered row listed e (List.mem_of_getElem? placed)) understood
  exact Option.eq_none_iff_forall_ne_some.mpr fun c found => slot c found supported

theorem Unsealed.idle {x : Insert Nat} (unsealed : g.Unsealed x) :
    (∃ ident ∈ x.columns, g.active.isDerived ident = true) ∨
      ∀ profile ∈ x.source.bind Query.profile?,
        (∀ row ∈ profile, row.length = x.columns.length) → g.RowsIdle x.columns profile := by
  cases unsealed with
  | derived derived => exact .inl (List.any_eq_true.mp derived)
  | plain plain =>
    refine .inr fun _ _ _ place member => .inl (plain place.1 ?_)
    exact (List.mem_zipIdx' member).2 ▸ List.getElem_mem _
  | source missing =>
    rw [profile?_eq, missing]
    exact .inr fun _ listed => absurd listed (by simp)
  | @width rows found narrow =>
    refine .inr fun profile listed wide => ?_
    rw [profile?_eq, found] at listed
    cases listed
    obtain ⟨row, member, differs⟩ := narrow
    have same := wide _ (List.mem_map_of_mem member)
    rw [List.length_map] at same
    exact absurd same differs

theorem InsertSealed.idle {x x' : Insert Nat}
    (assigned : ∀ a ∈ x.assignments, a.value ≠ .anonymous)
    (given : ∀ rows, rowsOf? x.source = some rows → ∀ row ∈ rows, ∀ e ∈ row, e ≠ .anonymous)
    (run : g.InsertSealed x x') :
    g.InsertIdle x'.columns (x'.source.bind Query.profile?)
      (assignmentsProfile x'.assignments) := by
  unfold InsertIdle
  cases run with
  | assignments bare run =>
    rw [if_pos bare]
    exact run.idle assigned
  | kept listed unsealed =>
    rw [if_neg listed]
    exact unsealed.idle
  | @rows rows rows' listed underived found wide run =>
    have length := length_columnSlots (g := g) x.columns rows
    by_cases empty : ∀ slot ∈ g.columnSlots x.columns rows, slot = none
    · have columns := (expandColumns_spliced (g := g) x.columns _).eq_of_empty empty
        (Nat.le_of_eq length.symm)
      obtain rfl := RowsSealed.eq_of_empty run empty fun row member =>
        Nat.le_of_eq ((wide row member).trans length.symm)
      rw [columns, withRows_self found, profile?_eq, found, if_neg listed]
      refine .inr fun profile member _ => ?_
      cases member
      exact rowsIdle_of_columnSlots (given _ found) empty
    · simp only [not_forall] at empty
      obtain ⟨slot, member, filled⟩ := empty
      obtain ⟨c, rfl⟩ := Option.ne_none_iff_exists'.mp filled
      obtain ⟨⟨ident, position⟩, inside, same⟩ := List.mem_map.mp member
      have paired : (ident, some c) ∈ x.columns.zip (g.columnSlots x.columns rows) := by
        rw [zip_columnSlots, ← same]
        exact List.mem_map_of_mem inside
      obtain ⟨target, index, pair, listed⟩ :=
        (expandColumns_spliced (g := g) x.columns _).exists_pair paired
      have derived : g.active.isDerived target = true := by
        rw [(Prod.mk.inj pair).1]
        have stands := columnSlots_stands paired
        exact ActiveColumns.isDerived_target (ActiveColumns.mem_of_get? stands).1 ident
      rw [if_neg (List.ne_nil_of_mem listed)]
      exact .inl ⟨target, listed, derived⟩

end Writes

section Trees

/-- A placeholder that has no ordinal would show among the origins. -/
theorem ne_anonymous_of_mem {vs : List (Visit Nat)} (numbered : none ∉ originsOf vs) {e : Expr Nat}
    (inside : e.visits ⊆ vs) : e ≠ .anonymous := by
  rintro rfl
  exact numbered (List.filterMap_subset _ inside List.mem_cons_self)

theorem visits_subset_rows {rows : List (List (Expr Nat))} {row : List (Expr Nat)} {e : Expr Nat}
    (listed : row ∈ rows) (member : e ∈ row) : e.visits ⊆ visitsRows rows := by
  induction rows with
  | nil => cases listed
  | cons first rows ih =>
    rw [visitsRows]
    rcases List.mem_cons.mp listed with rfl | later
    · refine List.subset_append_of_subset_left _ ?_
      rw [visitsAll_eq]
      exact fun v inside => List.mem_flatMap.mpr ⟨e, member, inside⟩
    · exact List.subset_append_of_subset_right _ (ih later)

theorem visits_subset_assignments {as : List (Assignment Nat)} {a : Assignment Nat}
    (member : a ∈ as) : a.value.visits ⊆ visitsAssignments as := by
  rw [visitsAssignments_eq]
  exact fun v inside => List.mem_flatMap.mpr ⟨a, member, inside⟩

theorem TreeSealed.settled {t t' : Statement Nat} (numbered : none ∉ t.origins)
    (run : g.TreeSealed t t') : g.Settled t'.outline := by
  cases run with
  | @insert x _ run =>
    replace numbered : none ∉ originsOf x.visits := numbered
    simp only [x.origins_eq, List.mem_append, not_or] at numbered
    obtain ⟨source, assignments, -⟩ := numbered
    refine run.idle (fun a member => ?_) fun rows found row listed e member => ?_
    · exact ne_anonymous_of_mem assignments (visits_subset_assignments member)
    · obtain ⟨front, back, around⟩ := rowsAround found
      refine ne_anonymous_of_mem source ?_
      rw [around.visits]
      refine List.subset_append_of_subset_right _ (List.subset_append_of_subset_left _ ?_)
      exact visits_subset_rows listed member
  | @update x as filter assignments run =>
    replace numbered : none ∉ originsOf x.visits := numbered
    simp only [x.origins_eq, List.mem_append, not_or] at numbered
    refine ⟨assignments.idle fun a member => ?_, run.idle⟩
    exact ne_anonymous_of_mem numbered.2.1 (visits_subset_assignments member)
  | delete filter => exact filter.idle
  | query selects => exact selectwise_idle selects
  | explain => trivial
  | other => trivial

end Trees

end Sealing

theorem Parameters.length_mappings (p : Parameters) : p.mappings.length = p.length :=
  List.length_map _

theorem Parameters.toBound_ofBound (bound : BoundStatement) :
    (Parameters.ofBound bound).toBound bound.sql = bound := by
  have mappings : (Parameters.ofBound bound).mappings = bound.mappings := by
    rw [Parameters.mappings, Parameters.ofBound, List.map_map]
    exact List.zipIdx_map_fst 0 bound.mappings
  rw [Parameters.toBound, mappings]
  rfl

theorem Parameters.length_ofBound (bound : BoundStatement) :
    (Parameters.ofBound bound).length = bound.mappings.length := by
  simp [Parameters.length, Parameters.ofBound]

/-- A pass over a settled statement that is bound to as many mappings as it has placeholders. -/
theorem sealBound_settled {active : ActiveColumns} {options : SealOptions}
    {bound : BoundStatement} {t : Statement} (handler : Handler) (resultMaps : List ResultMap)
    (settled : Sealing.Settled ⟨active, handler, options, resultMaps, bound.mappings⟩ t.outline)
    (counted : t.countAnonymous = bound.mappings.length) (text : bound.sql = t.render)
    (supply : Supply) :
    (∃ log, sealBound active handler options resultMaps bound t supply =
      (.ok ⟨bound, []⟩, log, supply)) ∧
    Sealing.Emits ⟨active, handler, options, resultMaps, bound.mappings⟩ bound supply t t.number.1
      ⟨bound, []⟩ := by
  rw [← t.outline_number] at settled
  obtain ⟨log, idle⟩ := Sealing.sealTree_idles settled (Sealing.draftOf bound supply)
  have result : (⟨bound, []⟩ : Sealed) =
      ⟨(Parameters.ofBound bound).toBound t.number.1.restore.render, []⟩ := by
    rw [t.restore_number, ← text, Parameters.toBound_ofBound]
  constructor
  · refine ⟨log, sealBound_gives (Sealing.gives_sealStatement.mpr ⟨counted, _, idle, ?_, result⟩)⟩
    rw [t.restore_number, counted]
    exact (Parameters.length_ofBound bound).symm
  · exact ⟨counted.symm, _, idle, result⟩

/-- A second pass, with any handler, gives the same result and leaves the supply. -/
theorem sealing_settles (active : ActiveColumns) (handler : Handler) (options : SealOptions)
    (resultMaps : List ResultMap) (bound : BoundStatement) (t : Statement) (supply : Supply)
    (sealed : Sealed)
    (succeeded : (sealBound active handler options resultMaps bound t supply).1 = .ok sealed) :
    ∃ tree,
      Sealing.Emits ⟨active, handler, options, resultMaps, bound.mappings⟩ bound supply t tree
        sealed ∧
      ∀ (handler' : Handler) (supply' : Supply),
        (∃ log, sealBound active handler' options resultMaps sealed.bound tree.restore supply' =
          (.ok ⟨sealed.bound, []⟩, log, supply')) ∧
        ∃ again, again.restore = tree.restore ∧
          Sealing.Emits ⟨active, handler', options, resultMaps, sealed.bound.mappings⟩ sealed.bound
            supply' tree.restore again ⟨sealed.bound, []⟩ := by
  obtain ⟨d, run⟩ := sealBound_ok.mp succeeded
  obtain ⟨counted, tree, pass, left, rfl⟩ := Sealing.gives_sealStatement.mp run
  refine ⟨tree, ⟨counted.symm, d, pass, rfl⟩, fun handler' supply' => ?_⟩
  have numbered : none ∉ t.number.1.origins := by
    rw [t.origins_number]
    simp
  have settled := (Sealing.sealTree_sealed pass).settled numbered
  rw [← tree.outline_restore] at settled
  have aligned : tree.restore.countAnonymous =
      (d.parameters.toBound tree.restore.render).mappings.length :=
    left.trans d.parameters.length_mappings.symm
  obtain ⟨same, emits⟩ := sealBound_settled handler' resultMaps settled aligned rfl supply'
  exact ⟨same, _, tree.restore.restore_number, emits⟩

open Sample in
theorem sealing_settles_insert :
    (sealBound active handler ⟨true, false⟩ [] bound statement supply).1 = .ok result ∧
    ∃ tree, Sealing.Emits sealing bound supply statement tree result ∧
      ∀ (handler' : Handler) (supply' : Supply),
        (∃ log, sealBound active handler' ⟨true, false⟩ [] result.bound tree.restore supply' =
          (.ok ⟨result.bound, []⟩, log, supply')) ∧
        ∃ again, again.restore = tree.restore ∧
          Sealing.Emits ⟨active, handler', ⟨true, false⟩, [], result.bound.mappings⟩ result.bound
            supply' tree.restore again ⟨result.bound, []⟩ :=
  ⟨seals, sealing_settles active handler ⟨true, false⟩ [] bound statement supply result seals⟩

end SealedColumns

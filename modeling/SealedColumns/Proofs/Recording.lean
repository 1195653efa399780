import SealedColumns.Proofs.Members
import SealedColumns.Proofs.Run
import SealedColumns.Seal.Statement

/-!
The aliases that a pass over a query records: the output names of all items that are turned to a
ciphertext column, at whatever depth their select stands, and nothing else.
-/
namespace SealedColumns

open Sql

def recordIn (maps : List ResultMap) (aliases : Members String) (label : Ident) : Members String :=
  aliases.insert label.text (propertyOf maps label)

/-- The property goes by the text of a label, so a label that is recorded again stays as it was. -/
theorem propertyOf_text (maps : List ResultMap) {label label' : Ident}
    (same : label.text = label'.text) : propertyOf maps label = propertyOf maps label' := by
  simp only [propertyOf, Ident.normalized, same]

theorem get?_foldl_recordIn {maps : List ResultMap} {labels : List Ident} {aliases : Members String}
    {label : Ident}
    (recorded : label ∈ labels ∨ aliases.get? label.text = some (propertyOf maps label)) :
    Members.get? label.text (labels.foldl (recordIn maps) aliases) =
      some (propertyOf maps label) := by
  induction labels generalizing aliases with
  | nil =>
    rcases recorded with member | found
    · exact absurd member List.not_mem_nil
    · exact found
  | cons first rest ih =>
    apply ih
    rw [recordIn, Members.get?_insert]
    by_cases same : label.text = first.text
    · rw [if_pos same, propertyOf_text maps same]
      exact .inr rfl
    · rw [if_neg same]
      refine recorded.imp (fun member => ?_) id
      exact (List.mem_cons.mp member).resolve_left fun here => same (here ▸ rfl)

namespace Sealing

variable {α β : Type} {g : Sealing}

/-- A run that succeeds records these labels, one after the other. -/
def Records (g : Sealing) (m : Seal α) (labels : List Ident) : Prop :=
  ∀ (d d' : Draft) (a : α), m.Gives d a d' →
    d'.aliases = labels.foldl (recordIn g.resultMaps) d.aliases

theorem Records.pure (a : α) : g.Records (Pure.pure a : Seal α) [] := by
  intro d d' b run
  rw [Seal.gives_pure] at run
  rw [run.2]
  rfl

theorem Records.fail (fault : SealFault) : g.Records (Seal.fail fault : Seal α) [] := by
  intro d d' a run
  exact absurd run (Seal.gives_fail _ _ _ _)

theorem Records.bind {m : Seal α} {f : α → Seal β} {xs ys : List Ident} (first : g.Records m xs)
    (second : ∀ a, g.Records (f a) ys) : g.Records (m >>= f) (xs ++ ys) := by
  intro d d' b run
  obtain ⟨a, middle, here, later⟩ := (Seal.gives_bind m f d d' b).mp run
  rw [List.foldl_append, ← first d middle a here]
  exact second a middle d' b later

theorem Records.map {m : Seal α} {labels : List Ident} (run : g.Records m labels) (f : α → β) :
    g.Records (m >>= fun a => Pure.pure (f a)) labels := by
  rw [← List.append_nil labels]
  exact run.bind fun a => .pure (f a)

theorem Records.mapM {f : α → Seal β} {labels : α → List Ident}
    (each : ∀ x, g.Records (f x) (labels x)) (xs : List α) :
    g.Records (xs.mapM f) (xs.flatMap labels) := by
  induction xs with
  | nil => exact .pure []
  | cons x xs ih =>
    rw [List.mapM_cons, List.flatMap_cons]
    exact (each x).bind fun y => ih.map (y :: ·)

section Predicates

theorem records_valueAt (ordinal : Nat) : g.Records (g.valueAt ordinal) [] := by
  intro d d' value run
  obtain ⟨-, rfl⟩ := (gives_valueAt g ordinal value d d').mp run
  rfl

theorem records_plainText (value : Json) : g.Records (plainText value) [] := by
  intro d d' plain run
  obtain ⟨-, rfl⟩ := (gives_plainText value plain d d').mp run
  rfl

theorem records_index (plain : String) : g.Records (g.index plain) [] := by
  intro d d' index run
  obtain ⟨-, rfl⟩ := (gives_index g plain index d d').mp run
  rfl

theorem records_freshName : g.Records Seal.freshName [] := by
  intro d d' name run
  obtain ⟨-, rfl⟩ := (Seal.gives_freshName d d' name).mp run
  rfl

theorem records_setParameters (p : Parameters) : g.Records (Seal.setParameters p) [] := by
  intro d d' u run
  obtain rfl := (Seal.gives_setParameters p d d' u).mp run
  rfl

theorem records_get : g.Records get [] := by
  intro d d' a run
  obtain ⟨-, rfl⟩ := (Seal.gives_get d d' a).mp run
  rfl

theorem records_indexPlaceholder (ordinal : Nat) : g.Records (g.indexPlaceholder ordinal) [] := by
  refine (records_valueAt ordinal).bind fun value => (records_plainText value).bind fun plain => ?_
  cases plain with
  | none => exact .pure ()
  | some plain =>
    refine (records_index plain).bind fun index => records_freshName.bind fun name =>
      records_get.bind fun d => ?_
    split
    · exact records_setParameters _
    · exact .pure ()

theorem records_indexValue (v : Value Nat) : g.Records (g.indexValue v) [] := by
  unfold indexValue
  split
  · exact (records_indexPlaceholder _).map _
  · exact (records_index _).map _
  · exact .pure v
  · exact .pure v

mutual

theorem records_indexOperand : ∀ e : Expr Nat, g.Records (g.indexOperand e) []
  | .value v => (records_indexValue v).map _
  | .nested e | .argument _ _ e => (records_indexOperand e).map _
  | .call _ _ args _ _ => (records_indexArguments args).map _
  | .column _ _ | .unary _ _ | .isNull _ _ | .binary _ _ _ | .pattern _ _ _ _ _ | .inList _ _ _
  | .inQuery _ _ _ | .star _ | .existence _ _ | .subquery _ | .framed _ _ => .pure _

theorem records_indexArguments : ∀ es : List (Expr Nat), g.Records (g.indexArguments es) []
  | [] => .pure _
  | e :: es => (records_indexOperand e).bind fun _ => (records_indexArguments es).map _

end

theorem records_indexOperandIf (indexed : Bool) (e : Expr Nat) :
    g.Records (g.indexOperandIf indexed e) [] := by
  cases indexed with
  | true => exact records_indexOperand e
  | false => exact .pure _

theorem records_indexItems (items : List (Expr Nat)) : g.Records (g.indexItems items) [] := by
  induction items with
  | nil => exact .pure []
  | cons e items ih => exact (records_indexOperand e).bind fun _ => ih.map _

mutual

theorem records_sealPredicate (scope : List String) : ∀ e : Expr Nat,
    g.Records (g.sealPredicate scope e) []
  | .nested e | .unary _ e | .isNull _ e | .inQuery _ e _ | .argument _ _ e => by
    unfold sealPredicate
    exact (records_sealPredicate scope e).map _
  | .binary l _ r => by
    unfold sealPredicate
    refine (records_indexOperandIf _ r).bind fun r' => ?_
    refine (records_indexOperandIf _ l).bind fun l' => ?_
    have reachL := l'.property
    have reachR := r'.property
    exact (records_sealPredicate scope l'.val).bind fun _ =>
      (records_sealPredicate scope r'.val).map _
  | .pattern _ _ e p _ => by
    unfold sealPredicate
    exact (records_indexOperandIf _ p).bind fun _ => (records_sealPredicate scope e).map _
  | .inList _ e items => by
    unfold sealPredicate
    split
    · exact (records_indexItems items).bind fun _ => (records_sealPredicate scope e).map _
    · exact (Records.pure items).bind fun _ => (records_sealPredicate scope e).map _
  | .call _ _ args _ _ => by
    unfold sealPredicate
    exact (records_sealArguments scope args).map _
  | .column _ _ | .value _ | .star _ | .existence _ _ | .subquery _ | .framed _ _ => by
    unfold sealPredicate
    exact .pure _
termination_by e => e.reach
decreasing_by all_goals simp only [Expr.reach] at *; omega

theorem records_sealArguments (scope : List String) : ∀ es : List (Expr Nat),
    g.Records (g.sealArguments scope es) []
  | [] => by
    unfold sealArguments
    exact .pure _
  | e :: es => by
    unfold sealArguments
    exact (records_sealPredicate scope e).bind fun _ => (records_sealArguments scope es).map _
termination_by es => reachAll es
decreasing_by all_goals simp only [reachAll] at *; omega

end

theorem records_sealFilter (scope : List String) (filter : Option (Expr Nat)) :
    g.Records (g.sealFilter scope filter) [] := by
  unfold sealFilter
  split
  · exact .pure none
  · split
    · exact (records_sealPredicate scope _).map _
    · exact .pure _

end Predicates

section Queries

variable (g)

/-- The output name of an item that is turned to a ciphertext column. -/
def redirected? (scope : List String) (item : SelectItem Nat) : Option Ident :=
  if g.options.overwrite then
    (g.projected? scope item.expr).bind fun _ => item.label.or item.expr.columnName?
  else none

mutual

def queryLabels : Query Nat → List Ident
  | ⟨_, ctes, body, _⟩ => ctesLabels ctes ++ bodyLabels body

def ctesLabels : List (Cte Nat) → List Ident
  | [] => []
  | ⟨_, _, _, query⟩ :: ctes => queryLabels query ++ ctesLabels ctes

def bodyLabels : SetExpr Nat → List Ident
  | .select s => selectLabels s
  | .query q => queryLabels q
  | .operation _ _ l r => bodyLabels l ++ bodyLabels r
  | _ => []

def selectLabels : Select Nat → List Ident
  | ⟨_, _, projection, sources, _, _⟩ =>
    projection.flatMap (fun item => (g.redirected? (scopeOf sources) item).toList) ++
      sourcesLabels sources

def sourcesLabels : List (FromItem Nat) → List Ident
  | [] => []
  | item :: items => sourceLabels item ++ sourcesLabels items

def sourceLabels : FromItem Nat → List Ident
  | ⟨relation, joins⟩ => factorLabels relation ++ joinsLabels joins

def joinsLabels : List (Join Nat) → List Ident
  | [] => []
  | ⟨_, _, relation, _, _⟩ :: joins => factorLabels relation ++ joinsLabels joins

def factorLabels : TableFactor Nat → List Ident
  | .derived _ query _ => queryLabels query
  | .nested item _ => sourceLabels item
  | _ => []

end

variable {g}

theorem records_sealItem (overwrite : g.options.overwrite = true) (scope : List String)
    (item : SelectItem Nat) :
    g.Records (g.sealItem scope item) (g.redirected? scope item).toList := by
  unfold sealItem redirected?
  rw [if_pos overwrite]
  split
  · rename_i column label projected labelled
    rw [projected, Option.bind_some, labelled]
    intro d d' item' run
    simp only [recordAlias, Seal.gives_bind, Seal.gives_modify, Seal.gives_pure] at run
    obtain ⟨_, _, rfl, -, rfl⟩ := run
    rfl
  · rename_i unmatched
    have none : ((g.projected? scope item.expr).bind fun _ =>
        item.label.or item.expr.columnName?) = none := by
      cases projected : g.projected? scope item.expr with
      | none => rfl
      | some c =>
        rw [Option.bind_some]
        exact Option.eq_none_iff_forall_ne_some.mpr fun label labelled =>
          unmatched c label projected labelled
    rw [none]
    exact .pure item

theorem records_sealProjection (scope : List String) (items : List (SelectItem Nat)) :
    g.Records (g.sealProjection scope items)
      (items.flatMap fun item => (g.redirected? scope item).toList) := by
  unfold sealProjection
  split
  · rename_i active
    exact .mapM (records_sealItem (Bool.and_eq_true_iff.mp active).1 scope) items
  · rename_i idle
    have none : ∀ item ∈ items, (g.redirected? scope item).toList = [] := by
      intro item _
      unfold redirected?
      split
      · rename_i overwrite
        have empty : scope = [] := by simpa [overwrite] using idle
        simp [projected?, empty]
      · rfl
    rw [List.flatMap_eq_nil_iff.mpr none]
    exact .pure items

mutual

theorem records_sealQuery : ∀ q : Query Nat, g.Records (g.sealQuery q) (g.queryLabels q)
  | ⟨_, ctes, body, _⟩ =>
    (records_sealCtes ctes).bind fun _ => (records_sealBody body).map _

theorem records_sealCtes : ∀ ctes : List (Cte Nat), g.Records (g.sealCtes ctes) (g.ctesLabels ctes)
  | [] => .pure _
  | ⟨_, _, _, query⟩ :: ctes =>
    (records_sealQuery query).bind fun _ => (records_sealCtes ctes).map _

theorem records_sealBody : ∀ body : SetExpr Nat, g.Records (g.sealBody body) (g.bodyLabels body)
  | .select s => (records_sealSelect s).map _
  | .query q => (records_sealQuery q).map _
  | .operation _ _ l r => (records_sealBody l).bind fun _ => (records_sealBody r).map _
  | .values _ _ | .insert _ | .update _ | .delete _ => .pure _

theorem records_sealSelect : ∀ s : Select Nat, g.Records (g.sealSelect s) (g.selectLabels s)
  | ⟨_, _, projection, sources, filter, _⟩ =>
    (records_sealProjection (scopeOf sources) projection).bind fun _ => by
      rw [← List.append_nil (g.sourcesLabels sources)]
      exact (records_sealSources sources).bind fun _ =>
        (records_sealFilter (scopeOf sources) filter).map _

theorem records_sealSources : ∀ items : List (FromItem Nat),
    g.Records (g.sealSources items) (g.sourcesLabels items)
  | [] => .pure _
  | item :: items => (records_sealSource item).bind fun _ => (records_sealSources items).map _

theorem records_sealSource : ∀ item : FromItem Nat,
    g.Records (g.sealSource item) (g.sourceLabels item)
  | ⟨relation, joins⟩ =>
    (records_sealFactor relation).bind fun _ => (records_sealJoins joins).map _

theorem records_sealJoins : ∀ joins : List (Join Nat),
    g.Records (g.sealJoins joins) (g.joinsLabels joins)
  | [] => .pure _
  | ⟨_, _, relation, _, _⟩ :: joins =>
    (records_sealFactor relation).bind fun _ => (records_sealJoins joins).map _

theorem records_sealFactor : ∀ factor : TableFactor Nat,
    g.Records (g.sealFactor factor) (g.factorLabels factor)
  | .table _ _ _ _ => .pure _
  | .derived _ query _ => (records_sealQuery query).map _
  | .nested item _ => (records_sealSource item).map _

end

end Queries

end Sealing

end SealedColumns

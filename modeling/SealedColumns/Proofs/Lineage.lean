import SealedColumns.Proofs.Recording
import SealedColumns.Proofs.Selects

/-!
Where the values of a query's output columns come from. A column is traced through derived tables,
common table expressions and the branches of set operations, back to an item that sealing turns to
a ciphertext column; of base tables nothing is known but that their columns are no such items.
-/
namespace SealedColumns

open Sql

/-- An output column, and the output name of the redirected item that its values come from. -/
structure Output where
  name : Option Ident
  origin : Option Ident
deriving DecidableEq, Repr

/-- The columns that a FROM clause offers under a qualifier. -/
structure Offer where
  qualifier : Option Ident
  columns : List Output

/-- The common table expressions of one WITH clause; those of a recursive one see each other. -/
structure Frame where
  recursive : Bool
  ctes : List (Cte Nat)

/-- What a query can name besides base tables: common table expressions, innermost first, and the
columns around it. -/
structure Surroundings where
  frames : List Frame
  outer : List Offer

def relabel : List Ident → List Output → List Output
  | name :: names, o :: outs => { o with name := some name } :: relabel names outs
  | _, outs => outs

/-- A table alias can name the columns as well. -/
def Offer.ofAlias (label : Option TableAlias) (name : Option Ident) (outs : List Output) : Offer :=
  ⟨(label.map TableAlias.name).or name,
    relabel ((label.map TableAlias.columns).getD []) outs⟩

/-- The columns that a qualifier, or none, selects; letter case does not count. -/
def Offered (offers : List Offer) (qualifier : List Ident) (o : Output) : Prop :=
  ∃ offer ∈ offers, o ∈ offer.columns ∧
    (qualifier = [] ∨
      offer.qualifier.map Ident.normalized = qualifier.getLast?.map Ident.normalized)

inductive Visible : List Frame → Ident → Cte Nat → List Frame → Prop where
  | here {frame : Frame} {frames : List Frame} {before behind : List (Cte Nat)} {c : Cte Nat}
      {name : Ident} : frame.ctes = before ++ c :: behind → c.name.normalized = name.normalized →
        Visible (frame :: frames) name c
          (⟨frame.recursive, if frame.recursive then frame.ctes else before⟩ :: frames)
  | outer {frame : Frame} {frames frames' : List Frame} {c : Cte Nat} {name : Ident} :
      (∀ c ∈ frame.ctes, c.name.normalized ≠ name.normalized) → Visible frames name c frames' →
        Visible (frame :: frames) name c frames'

/-- The branches of a set operation meet by position, and the first one gives the names. -/
inductive Merged : List Output → List Output → List Output → Prop where
  | nil : Merged [] [] []
  | cons {l r : Output} {ls rs outs : List Output} {origin : Option Ident} :
      origin = l.origin ∨ origin = r.origin → Merged ls rs outs →
        Merged (l :: ls) (r :: rs) (⟨l.name, origin⟩ :: outs)

def Sql.SetQuantifier.byNames : SetQuantifier → Bool
  | .byName | .allByName | .distinctByName => true
  | _ => false

/-- The qualifier of an item that stands for several columns, possibly with some left out. -/
def Sql.Expr.star? : Expr Nat → Option (List Ident)
  | .star qualifier => some qualifier
  | .framed _ [.star qualifier] => some qualifier
  | _ => none

namespace Sealing

section Relations

variable (g : Sealing)

/-- The columns that an item of a select gives. -/
inductive ItemGives (scope : List String) (offers : List Offer) :
    SelectItem Nat → List Output → Prop where
  | redirected {item : SelectItem Nat} {label : Ident} : g.redirected? scope item = some label →
      ItemGives scope offers item [⟨some label, some label⟩]
  | reference {qualifier : List Ident} {name : Ident} {label : Option Ident} {o : Output} :
      Offered offers qualifier o → o.name.map Ident.normalized = some name.normalized →
        ItemGives scope offers ⟨.column qualifier name, label⟩ [⟨some (label.getD name), o.origin⟩]
  | star {item : SelectItem Nat} {qualifier : List Ident} {outs : List Output} :
      item.expr.star? = some qualifier → (∀ o ∈ outs, Offered offers qualifier o) →
        ItemGives scope offers item outs
  | computed {item : SelectItem Nat} : item.expr.columnName? = none → item.expr.star? = none →
      ItemGives scope offers item [⟨item.label, none⟩]

inductive ItemsGive (scope : List String) (offers : List Offer) :
    List (SelectItem Nat) → List Output → Prop where
  | nil : ItemsGive scope offers [] []
  | cons {item : SelectItem Nat} {items : List (SelectItem Nat)} {outs rest : List Output} :
      g.ItemGives scope offers item outs → ItemsGive scope offers items rest →
        ItemsGive scope offers (item :: items) (outs ++ rest)

mutual

inductive QueryGives : Surroundings → Query Nat → List Output → Prop where
  | query {env : Surroundings} {recursive : Bool} {ctes : List (Cte Nat)} {body : SetExpr Nat}
      {clauses : List (Expr Nat)} {outs : List Output} :
      BodyGives ⟨⟨recursive, ctes⟩ :: env.frames, env.outer⟩ body outs →
        QueryGives env ⟨recursive, ctes, body, clauses⟩ outs

inductive BodyGives : Surroundings → SetExpr Nat → List Output → Prop where
  | select {env : Surroundings} {order : SelectOrder} {quantifiers clauses : List (Expr Nat)}
      {projection : List (SelectItem Nat)} {sources : List (FromItem Nat)}
      {filter : Option (Expr Nat)} {offers : List Offer} {outs : List Output} :
      order ≠ .sourcesOnly → SourcesGive env [] sources offers →
      ItemsGive g (scopeOf sources) (offers ++ env.outer) projection outs →
        BodyGives env (.select ⟨order, quantifiers, projection, sources, filter, clauses⟩) outs
  | sources {env : Surroundings} {quantifiers clauses : List (Expr Nat)}
      {projection : List (SelectItem Nat)} {sources : List (FromItem Nat)}
      {filter : Option (Expr Nat)} {offers : List Offer} {outs : List Output} :
      SourcesGive env [] sources offers → (∀ o ∈ outs, Offered offers [] o) →
        BodyGives env
          (.select ⟨.sourcesOnly, quantifiers, projection, sources, filter, clauses⟩) outs
  | query {env : Surroundings} {q : Query Nat} {outs : List Output} : QueryGives env q outs →
      BodyGives env (.query q) outs
  | operation {env : Surroundings} {op : SetOp} {quantifier : SetQuantifier} {l r : SetExpr Nat}
      {ls rs outs : List Output} : quantifier.byNames = false → BodyGives env l ls →
      BodyGives env r rs → Merged ls rs outs → BodyGives env (.operation op quantifier l r) outs
  | byNames {env : Surroundings} {op : SetOp} {quantifier : SetQuantifier} {l r : SetExpr Nat}
      {ls rs outs : List Output} : quantifier.byNames = true → BodyGives env l ls →
      BodyGives env r rs → (∀ o ∈ outs, o ∈ ls ∨ o ∈ rs) →
        BodyGives env (.operation op quantifier l r) outs
  | closed {env : Surroundings} {body : SetExpr Nat} {outs : List Output} :
      body.isClosed = true → (∀ o ∈ outs, o.origin = none) → BodyGives env body outs

/-- What the items of a FROM clause offer; a lateral one can name those before it. -/
inductive SourcesGive : Surroundings → List Offer → List (FromItem Nat) → List Offer → Prop where
  | nil {env : Surroundings} {sofar : List Offer} : SourcesGive env sofar [] []
  | cons {env : Surroundings} {sofar first joined rest : List Offer} {relation : TableFactor Nat}
      {joins : List (Join Nat)} {items : List (FromItem Nat)} :
      FactorGives env sofar relation first → JoinsGive env (sofar ++ first) joins joined →
      SourcesGive env (sofar ++ (first ++ joined)) items rest →
        SourcesGive env sofar (⟨relation, joins⟩ :: items) (first ++ joined ++ rest)

inductive JoinsGive : Surroundings → List Offer → List (Join Nat) → List Offer → Prop where
  | nil {env : Surroundings} {sofar : List Offer} : JoinsGive env sofar [] []
  | cons {env : Surroundings} {sofar first rest : List Offer} {kind : JoinKind} {natural : Bool}
      {relation : TableFactor Nat} {condition : Option (Expr Nat)} {shared : List Name}
      {joins : List (Join Nat)} :
      FactorGives env sofar relation first → JoinsGive env (sofar ++ first) joins rest →
        JoinsGive env sofar (⟨kind, natural, relation, condition, shared⟩ :: joins) (first ++ rest)

inductive FactorGives : Surroundings → List Offer → TableFactor Nat → List Offer → Prop where
  | base {env : Surroundings} {sofar : List Offer} {name : Name} {isCall : Bool}
      {args : List (Expr Nat)} {label : Option TableAlias} {outs : List Output} :
      (∀ o ∈ outs, o.origin = none) →
        FactorGives env sofar (.table name isCall args label)
          [.ofAlias label name.getLast? outs]
  | cte {env : Surroundings} {sofar : List Offer} {name : Ident} {args : List (Expr Nat)}
      {label : Option TableAlias} {c : Cte Nat} {frames : List Frame} {outs : List Output} :
      Visible env.frames name c frames → QueryGives ⟨frames, env.outer⟩ c.query outs →
        FactorGives env sofar (.table [name] false args label)
          [.ofAlias label (some name) (relabel c.columns outs)]
  | derived {env : Surroundings} {sofar : List Offer} {lateral : Bool} {q : Query Nat}
      {label : Option TableAlias} {outs : List Output} :
      QueryGives ⟨env.frames, if lateral then sofar ++ env.outer else env.outer⟩ q outs →
        FactorGives env sofar (.derived lateral q label) [.ofAlias label none outs]
  | nested {env : Surroundings} {sofar first rest : List Offer} {relation : TableFactor Nat}
      {joins : List (Join Nat)} :
      FactorGives env sofar relation first → JoinsGive env (sofar ++ first) joins rest →
        FactorGives env sofar (.nested ⟨relation, joins⟩ none) (first ++ rest)
  | labelled {env : Surroundings} {sofar first rest : List Offer} {relation : TableFactor Nat}
      {joins : List (Join Nat)} {label : TableAlias} :
      FactorGives env sofar relation first → JoinsGive env (sofar ++ first) joins rest →
        FactorGives env sofar (.nested ⟨relation, joins⟩ (some label))
          [.ofAlias (some label) none ((first ++ rest).flatMap Offer.columns)]

end

end Relations

/-- All values come from items with these labels, as far as they come from items. -/
def Known (labels : List Ident) (outs : List Output) : Prop :=
  ∀ o ∈ outs, ∀ label, o.origin = some label → label ∈ labels

def KnownOffers (labels : List Ident) (offers : List Offer) : Prop :=
  ∀ offer ∈ offers, Known labels offer.columns

structure KnownAround (g : Sealing) (labels : List Ident) (env : Surroundings) : Prop where
  ctes : ∀ frame ∈ env.frames, ∀ c ∈ frame.ctes, g.queryLabels c.query ⊆ labels
  outer : KnownOffers labels env.outer

variable {g : Sealing} {labels : List Ident}

theorem Known.of_none {outs : List Output} (none : ∀ o ∈ outs, o.origin = none) :
    Known labels outs := by
  intro o member label origin
  rw [none o member] at origin
  cases origin

theorem Known.relabel {outs : List Output} (known : Known labels outs) (names : List Ident) :
    Known labels (relabel names outs) := by
  induction names generalizing outs with
  | nil => cases outs <;> exact known
  | cons name names ih =>
    cases outs with
    | nil => exact known
    | cons o outs =>
      intro o' member label origin
      rcases List.mem_cons.mp member with rfl | later
      · exact known o List.mem_cons_self label origin
      · exact ih (fun o later => known o (List.mem_cons_of_mem _ later)) o' later label origin

theorem Known.ofAlias {outs : List Output} (known : Known labels outs) (label : Option TableAlias)
    (name : Option Ident) : KnownOffers labels [.ofAlias label name outs] := by
  intro offer member
  obtain rfl := List.mem_singleton.mp member
  exact known.relabel _

theorem KnownOffers.append {first second : List Offer} (one : KnownOffers labels first)
    (two : KnownOffers labels second) : KnownOffers labels (first ++ second) :=
  List.forall_mem_append.mpr ⟨one, two⟩

theorem KnownOffers.of_offered {offers : List Offer} (known : KnownOffers labels offers)
    {qualifier : List Ident} {outs : List Output}
    (offered : ∀ o ∈ outs, Offered offers qualifier o) : Known labels outs := by
  intro o member
  obtain ⟨offer, listed, column, -⟩ := offered o member
  exact known offer listed o column

theorem Merged.known {ls rs outs : List Output} (merged : Merged ls rs outs)
    (left : Known labels ls) (right : Known labels rs) : Known labels outs := by
  induction merged with
  | nil => exact left
  | cons choice _ ih =>
    intro o member label origin
    rcases List.mem_cons.mp member with rfl | later
    · rcases choice with same | same
      · exact left _ List.mem_cons_self label (same ▸ origin)
      · exact right _ List.mem_cons_self label (same ▸ origin)
    · exact ih (fun o later => left o (List.mem_cons_of_mem _ later))
        (fun o later => right o (List.mem_cons_of_mem _ later)) o later label origin

theorem Visible.known {frames frames' : List Frame} {name : Ident} {c : Cte Nat}
    (visible : Visible frames name c frames')
    (ctes : ∀ frame ∈ frames, ∀ c ∈ frame.ctes, g.queryLabels c.query ⊆ labels) :
    g.queryLabels c.query ⊆ labels ∧
      ∀ frame ∈ frames', ∀ c ∈ frame.ctes, g.queryLabels c.query ⊆ labels := by
  induction visible with
  | @here frame frames before behind c name split _ =>
    have inside := ctes frame List.mem_cons_self
    refine ⟨inside c (split ▸ List.mem_append_right _ List.mem_cons_self), ?_⟩
    rw [List.forall_mem_cons]
    refine ⟨fun c' member => inside c' ?_,
      fun frame later => ctes frame (List.mem_cons_of_mem _ later)⟩
    cases recursive : frame.recursive with
    | true => simpa only [recursive, if_true] using member
    | false =>
      simp only [recursive, Bool.false_eq_true, if_false] at member
      exact split ▸ List.mem_append_left _ member
  | outer _ _ ih => exact ih fun frame later => ctes frame (List.mem_cons_of_mem _ later)

theorem ItemGives.known {scope : List String} {offers : List Offer} {item : SelectItem Nat}
    {outs : List Output} (gives : g.ItemGives scope offers item outs)
    (offered : KnownOffers labels offers) (inside : (g.redirected? scope item).toList ⊆ labels) :
    Known labels outs := by
  cases gives with
  | redirected redirected =>
    intro o member label origin
    obtain rfl := List.mem_singleton.mp member
    cases origin
    exact inside (by rw [redirected]; exact List.mem_singleton.mpr rfl)
  | reference here _ =>
    obtain ⟨offer, listed, column, -⟩ := here
    intro o member label origin
    obtain rfl := List.mem_singleton.mp member
    exact offered offer listed _ column label origin
  | star _ all => exact offered.of_offered all
  | computed _ _ => exact .of_none (List.forall_mem_singleton.mpr rfl)

theorem ItemsGive.known {scope : List String} {offers : List Offer} {items : List (SelectItem Nat)}
    {outs : List Output} (give : g.ItemsGive scope offers items outs)
    (offered : KnownOffers labels offers)
    (inside : items.flatMap (fun item => (g.redirected? scope item).toList) ⊆ labels) :
    Known labels outs := by
  induction give with
  | nil => exact .of_none fun _ member => absurd member List.not_mem_nil
  | cons first _ ih =>
    rw [List.flatMap_cons, List.append_subset] at inside
    exact List.forall_mem_append.mpr ⟨first.known offered inside.1, ih inside.2⟩

theorem queryLabels_subset_ctesLabels {ctes : List (Cte Nat)} {c : Cte Nat} (member : c ∈ ctes) :
    g.queryLabels c.query ⊆ g.ctesLabels ctes := by
  induction ctes with
  | nil => cases member
  | cons first ctes ih =>
    obtain ⟨name, columns, materialized, query⟩ := first
    rw [ctesLabels]
    rcases List.mem_cons.mp member with rfl | later
    · exact List.subset_append_left _ _
    · exact List.subset_append_of_subset_right _ (ih later)

mutual

theorem QueryGives.known : ∀ {env : Surroundings} {q : Query Nat} {outs : List Output},
    g.QueryGives env q outs → g.KnownAround labels env → g.queryLabels q ⊆ labels →
      Known labels outs
  | _, _, _, .query body, around, inside => by
    rw [queryLabels, List.append_subset] at inside
    refine body.known ⟨List.forall_mem_cons.mpr ⟨fun c member => ?_, around.ctes⟩, around.outer⟩
      inside.2
    exact List.Subset.trans (queryLabels_subset_ctesLabels member) inside.1

theorem BodyGives.known : ∀ {env : Surroundings} {body : SetExpr Nat} {outs : List Output},
    g.BodyGives env body outs → g.KnownAround labels env → g.bodyLabels body ⊆ labels →
      Known labels outs
  | _, _, _, .select _ sources items, around, inside => by
    rw [bodyLabels, selectLabels, List.append_subset] at inside
    have offered := sources.known around (fun _ member => absurd member List.not_mem_nil) inside.2
    exact items.known (offered.append around.outer) inside.1
  | _, _, _, .sources sources all, around, inside => by
    rw [bodyLabels, selectLabels, List.append_subset] at inside
    have offered := sources.known around (fun _ member => absurd member List.not_mem_nil) inside.2
    exact offered.of_offered all
  | _, _, _, .query query, around, inside => query.known around inside
  | _, _, _, .operation _ left right merged, around, inside => by
    rw [bodyLabels, List.append_subset] at inside
    exact Merged.known merged (left.known around inside.1) (right.known around inside.2)
  | _, _, _, .byNames _ left right either, around, inside => by
    rw [bodyLabels, List.append_subset] at inside
    intro o member
    rcases either o member with here | here
    · exact left.known around inside.1 o here
    · exact right.known around inside.2 o here
  | _, _, _, .closed _ untraced, _, _ => .of_none untraced

theorem SourcesGive.known : ∀ {env : Surroundings} {sofar offers : List Offer}
    {items : List (FromItem Nat)}, g.SourcesGive env sofar items offers →
      g.KnownAround labels env → KnownOffers labels sofar → g.sourcesLabels items ⊆ labels →
        KnownOffers labels offers
  | _, _, _, _, .nil, _, _, _ => fun _ member => absurd member List.not_mem_nil
  | _, _, _, _, .cons relation joins items, around, sofar, inside => by
    rw [sourcesLabels, sourceLabels, List.append_subset, List.append_subset] at inside
    have first := relation.known around sofar inside.1.1
    have joined := joins.known around (sofar.append first) inside.1.2
    have rest := items.known around (sofar.append (first.append joined)) inside.2
    exact (first.append joined).append rest

theorem JoinsGive.known : ∀ {env : Surroundings} {sofar offers : List Offer}
    {joins : List (Join Nat)}, g.JoinsGive env sofar joins offers → g.KnownAround labels env →
      KnownOffers labels sofar → g.joinsLabels joins ⊆ labels → KnownOffers labels offers
  | _, _, _, _, .nil, _, _, _ => fun _ member => absurd member List.not_mem_nil
  | _, _, _, _, .cons relation joins, around, sofar, inside => by
    rw [joinsLabels, List.append_subset] at inside
    have first := relation.known around sofar inside.1
    exact first.append (joins.known around (sofar.append first) inside.2)

theorem FactorGives.known : ∀ {env : Surroundings} {sofar offers : List Offer}
    {factor : TableFactor Nat}, g.FactorGives env sofar factor offers → g.KnownAround labels env →
      KnownOffers labels sofar → g.factorLabels factor ⊆ labels → KnownOffers labels offers
  | _, _, _, _, .base untraced, _, _, _ => (Known.of_none untraced).ofAlias _ _
  | _, _, _, _, .cte (c := c) visible query, around, _, _ => by
    obtain ⟨own, frames⟩ := Visible.known visible around.ctes
    exact ((query.known ⟨frames, around.outer⟩ own).relabel c.columns).ofAlias _ _
  | env, sofar, _, .derived lateral _ _, .derived query, around, before, inside => by
    have outer : KnownOffers labels (if lateral then sofar ++ env.outer else env.outer) := by
      cases lateral with
      | true => exact before.append around.outer
      | false => exact around.outer
    exact (query.known ⟨around.ctes, outer⟩ inside).ofAlias _ _
  | _, _, _, _, .nested relation joins, around, sofar, inside => by
    rw [factorLabels, sourceLabels, List.append_subset] at inside
    have first := relation.known around sofar inside.1
    exact first.append (joins.known around (sofar.append first) inside.2)
  | _, _, _, _, .labelled relation joins, around, sofar, inside => by
    rw [factorLabels, sourceLabels, List.append_subset] at inside
    have first := relation.known around sofar inside.1
    have both := first.append (joins.known around (sofar.append first) inside.2)
    refine Known.ofAlias (fun o member => ?_) _ _
    obtain ⟨offer, listed, column⟩ := List.mem_flatMap.mp member
    exact both offer listed o column

end

end Sealing

end SealedColumns

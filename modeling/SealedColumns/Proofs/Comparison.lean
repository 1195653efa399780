import SealedColumns.Proofs.Emission
import SealedColumns.Proofs.References

/-!
A column that is read from its index column is compared with indexes. The comparisons of a filter
are listed with both of their sides, down to the depth to which sealing looks; where the one side is
a sensitive column, without parentheses, the values on the other one give way to their indexes.
-/
namespace SealedColumns

namespace Sql

variable {ν : Type}

/-- One side of a comparison, and what it is compared with. -/
structure Comparison (ν : Type) where
  subject : Expr ν
  values : List (Expr ν)

mutual

/-- The comparisons that sealing reaches; each side of a binary operator counts once as subject. -/
def Expr.comparisons : Expr ν → List (Comparison ν)
  | .nested e => e.comparisons
  | .unary _ e => e.comparisons
  | .isNull _ e => e.comparisons
  | .binary l _ r => ⟨l, [r]⟩ :: ⟨r, [l]⟩ :: (l.comparisons ++ r.comparisons)
  | .pattern _ _ e p _ => ⟨e, [p]⟩ :: e.comparisons
  | .inList _ e items => ⟨e, items⟩ :: e.comparisons
  | .inQuery _ e _ => e.comparisons
  | .call _ _ args _ _ => comparisonsAll args
  | .argument _ _ e => e.comparisons
  | _ => []

def comparisonsAll : List (Expr ν) → List (Comparison ν)
  | [] => []
  | e :: es => e.comparisons ++ comparisonsAll es

end

/-- An expression without the parentheses around it. -/
def Expr.bare : Expr ν → Expr ν
  | .nested e => e.bare
  | e => e

/-- The text of a literal or of a placeholder, also inside parentheses. -/
def Expr.textWith (valueOf : Nat → Option Json) (e : Expr Nat) : Option String :=
  match Operand.ofExpr? e.bare with
  | some (.literal text) => some text
  | some (.placeholder n) => (valueOf n).bind fun value => value.plain?.join
  | _ => none

theorem Expr.operands_of_bare {n : Nat} : ∀ {e : Expr Nat},
    e.bare = .value (.placeholder (.numbered n)) → n ∈ e.operands
  | .value _, same => by
    cases same
    exact List.mem_singleton.mpr rfl
  | .nested e, same => Expr.operands_of_bare (e := e) same

end Sql

open Sql

namespace Sealing

variable {g : Sealing} {scope : List String} {all : List Nat}

mutual

theorem OperandIndexed.comparisons : ∀ {e e' : Expr Nat}, g.OperandIndexed e e' →
    e'.comparisons = e.comparisons ∧ ∀ scope, g.comparedIn scope e' = g.comparedIn scope e
  | _, _, .value _ => by
    simp only [Expr.comparisons, comparedIn, implies_true, and_self]
  | _, _, .nested inner | _, _, .argument inner => by
    simpa only [Expr.comparisons, comparedIn] using inner.comparisons
  | _, _, .call args => by simpa only [Expr.comparisons, comparedIn] using args.comparisons
  | _, _, .kept _ => ⟨rfl, fun _ => rfl⟩

theorem OperandsIndexed.comparisons : ∀ {es es' : List (Expr Nat)}, g.OperandsIndexed es es' →
    comparisonsAll es' = comparisonsAll es ∧
      ∀ scope, g.comparedAll scope es' = g.comparedAll scope es
  | _, _, .nil => ⟨rfl, fun _ => rfl⟩
  | _, _, .cons head tail => by
    obtain ⟨here, comparedHere⟩ := head.comparisons
    obtain ⟨rest, comparedRest⟩ := tail.comparisons
    simp only [comparisonsAll, comparedAll, here, comparedHere, rest, comparedRest, implies_true,
      and_self]

end

theorem OperandIndexedIf.comparisons {indexed : Bool} {e e' : Expr Nat}
    (run : g.OperandIndexedIf indexed e e') :
    e'.comparisons = e.comparisons ∧ ∀ scope, g.comparedIn scope e' = g.comparedIn scope e := by
  cases indexed with
  | true => exact OperandIndexed.comparisons run
  | false =>
    cases run
    exact ⟨rfl, fun _ => rfl⟩

theorem OperandIndexed.bare {v : Value Nat} : ∀ {e e' : Expr Nat}, g.OperandIndexed e e' →
    e.bare = .value v → ∃ v', e'.bare = .value v' ∧ g.ValueIndexed v v'
  | _, _, .value indexed, same => by
    cases same
    exact ⟨_, rfl, indexed⟩
  | _, _, .nested inner, same => inner.bare same
  | e, _, .kept closed, same => by
    cases e with
    | value | nested => cases closed
    | _ => cases same

/-- A value in parentheses stays as it is when the predicate around it is sealed. -/
theorem PredicateSealed.eq_of_bare {v : Value Nat} {e e' : Expr Nat}
    (run : g.PredicateSealed scope e e') (same : e.bare = .value v) : e' = e := by
  fun_induction Expr.bare e generalizing e' with
  | case1 e ih =>
    cases run with
    | nested inner => rw [ih inner same]
    | kept _ => rfl
  | case2 e plain =>
    subst same
    cases run with
    | kept _ => rfl

theorem isSensitive_of_bare {e : Expr Nat} {v : Value Nat} (same : e.bare = .value v) :
    g.isSensitive scope e = false := by
  cases e with
  | column => cases same
  | _ => rfl

theorem PredicateSealed.of_stands {qualifier : List Ident} {name : Ident} {c : SensitiveColumn}
    {e' : Expr Nat} (stands : g.Stands scope ⟨qualifier, name⟩ c)
    (run : g.PredicateSealed scope (.column qualifier name) e') :
    e' = .column qualifier { name with text := c.index } := by
  have sensitive := sensitive?_eq_some.mpr ⟨qualifier, name, rfl, stands⟩
  cases run with
  | column => simp only [readIndex, sensitive, Expr.renameColumn]
  | kept closed => cases closed

/-- A value that is compared with a sensitive column: a literal gives way to its index, and a
placeholder is among those that are compared. -/
def ValueCompared (g : Sealing) (all : List Nat) (e e' : Expr Nat) : Prop :=
  ∀ v, e.bare = .value v → ∃ v', e'.bare = .value v' ∧ g.ValueIndexed v v' ∧
    ∀ n, v = .placeholder (.numbered n) → n ∈ all

/-- A comparison with a sensitive column, before and after the filter is sealed. -/
def Compared (g : Sealing) (scope : List String) (all : List Nat)
    (before after : Comparison Nat) : Prop :=
  ∀ qualifier name c, before.subject = .column qualifier name →
    g.Stands scope ⟨qualifier, name⟩ c →
      after.subject = .column qualifier { name with text := c.index } ∧
        List.Forall₂ (g.ValueCompared all) before.values after.values

theorem OperandIndexed.compared {e e' : Expr Nat} (run : g.OperandIndexed e e')
    (inside : ∀ n ∈ e.operands, n ∈ all) : g.ValueCompared all e e' := by
  intro v same
  obtain ⟨v', same', indexed⟩ := run.bare same
  refine ⟨v', same', indexed, ?_⟩
  rintro n rfl
  exact inside n (Expr.operands_of_bare same)

theorem OperandsIndexed.compared : ∀ {es es' : List (Expr Nat)}, g.OperandsIndexed es es' →
    (∀ n ∈ operandsAll es, n ∈ all) → List.Forall₂ (g.ValueCompared all) es es'
  | _, _, .nil, _ => .nil
  | _, _, .cons head tail, inside =>
    .cons (head.compared fun n member => inside n (List.mem_append_left _ member))
      (tail.compared fun n member => inside n (List.mem_append_right _ member))

theorem compared_of {e e' : Expr Nat} {es es' : List (Expr Nat)}
    (subject : g.isSensitive scope e = true → g.PredicateSealed scope e e')
    (values : g.isSensitive scope e = true → List.Forall₂ (g.ValueCompared all) es es') :
    g.Compared scope all ⟨e, es⟩ ⟨e', es'⟩ := by
  rintro qualifier name c same stands
  cases same
  have sensitive : g.isSensitive scope (.column qualifier name) = true := by
    simp only [isSensitive, sensitive?_eq_some.mpr ⟨qualifier, name, rfl, stands⟩,
      Option.isSome_some]
  exact ⟨(subject sensitive).of_stands stands, values sensitive⟩

/-- Either side of a binary operator. The other one is indexed first if this one is sensitive, and
then both are sealed. -/
theorem compared_side {e e' e'' v v' v'' : Expr Nat}
    (onSubject : g.OperandIndexedIf (g.isSensitive scope v && !g.isSensitive scope e) e e')
    (onValue : g.OperandIndexedIf (g.isSensitive scope e && !g.isSensitive scope v) v v')
    (subject : g.PredicateSealed scope e' e'') (value : g.PredicateSealed scope v' v'')
    (inside : ∀ n ∈ operandsIf (g.isSensitive scope e && !g.isSensitive scope v) v, n ∈ all) :
    g.Compared scope all ⟨e, [v]⟩ ⟨e'', [v'']⟩ := by
  refine compared_of (fun sensitive => ?_) fun sensitive => .cons (fun w same => ?_) .nil
  · simp only [sensitive, Bool.not_true, Bool.and_false] at onSubject
    cases onSubject
    exact subject
  · simp only [sensitive, isSensitive_of_bare same, Bool.not_false, Bool.and_true] at onValue inside
    obtain ⟨w', same', indexed, listed⟩ := OperandIndexed.compared onValue inside w same
    rw [value.eq_of_bare same']
    exact ⟨w', same', indexed, listed⟩

mutual

theorem PredicateSealed.compared : ∀ {e e' : Expr Nat}, g.PredicateSealed scope e e' →
    (∀ n ∈ g.comparedIn scope e, n ∈ all) →
      List.Forall₂ (g.Compared scope all) e.comparisons e'.comparisons
  | _, _, .nested inner, inside | _, _, .unary inner, inside | _, _, .isNull inner, inside
  | _, _, .inQuery inner, inside | _, _, .argument inner, inside => by
    simp only [comparedIn] at inside
    simpa only [Expr.comparisons] using inner.compared inside
  | _, _, .binary onRight onLeft left right, inside => by
    simp only [comparedIn, List.mem_append, or_imp, forall_and] at inside
    obtain ⟨⟨⟨inRight, inLeft⟩, belowLeft⟩, belowRight⟩ := inside
    -- What is compared inside of a side is listed on the side as it was before it was indexed.
    rw [← onLeft.comparisons.2] at belowLeft
    rw [← onRight.comparisons.2] at belowRight
    have rest := List.rel_append (left.compared belowLeft) (right.compared belowRight)
    rw [onLeft.comparisons.1, onRight.comparisons.1] at rest
    simp only [Expr.comparisons]
    exact .cons (compared_side onLeft onRight left right inRight)
      (.cons (compared_side onRight onLeft right left inLeft) rest)
  | _, _, .pattern onPattern subject, inside => by
    simp only [comparedIn, List.mem_append, or_imp, forall_and] at inside
    simp only [Expr.comparisons]
    refine .cons (compared_of (fun _ => subject) fun sensitive => ?_) (subject.compared inside.2)
    rw [sensitive] at onPattern inside
    exact .cons (OperandIndexed.compared onPattern inside.1) .nil
  | _, _, .inList onItems subject, inside => by
    simp only [comparedIn, List.mem_append, or_imp, forall_and] at inside
    simp only [Expr.comparisons]
    refine .cons (compared_of (fun _ => subject) fun sensitive => ?_) (subject.compared inside.2)
    simp only [sensitive, if_true] at onItems inside
    exact OperandsIndexed.compared onItems inside.1
  | _, _, .call args, inside => by
    simp only [comparedIn] at inside
    simpa only [Expr.comparisons] using args.compared inside
  | _, _, .column, _ => by
    unfold readIndex
    split <;> exact .nil
  | e, _, .kept closed, _ => by
    cases e with
    | value | star | existence | subquery | framed => exact .nil
    | _ => cases closed

theorem ArgumentsSealed.compared : ∀ {es es' : List (Expr Nat)}, g.ArgumentsSealed scope es es' →
    (∀ n ∈ g.comparedAll scope es, n ∈ all) →
      List.Forall₂ (g.Compared scope all) (comparisonsAll es) (comparisonsAll es')
  | _, _, .nil, _ => .nil
  | _, _, .cons head tail, inside => by
    simp only [comparedAll, List.mem_append] at inside
    simp only [comparisonsAll]
    exact List.rel_append (head.compared fun n member => inside n (.inl member))
      (tail.compared fun n member => inside n (.inr member))

end

section Selects

variable {projects : List (FromItem Nat) → List (SelectItem Nat) → List (SelectItem Nat) → Prop}
  {filters : List (FromItem Nat) → Option (Expr Nat) → Option (Expr Nat) → Prop}

/-- The filter relation, with the placeholders that the filter compares among all that are. -/
def Listed (g : Sealing) (all : List Nat)
    (filters : List (FromItem Nat) → Option (Expr Nat) → Option (Expr Nat) → Prop)
    (sources : List (FromItem Nat)) (filter filter' : Option (Expr Nat)) : Prop :=
  filters sources filter filter' ∧ ∀ n ∈ g.filterCompared (scopeOf sources) filter, n ∈ all

mutual

theorem selectwise_listed : ∀ {q q' : Query Nat}, Selectwise projects filters q q' →
    (∀ n ∈ g.queryCompared q, n ∈ all) → Selectwise projects (g.Listed all filters) q q'
  | _, _, .query ctes body, inside => by
    simp only [queryCompared, List.mem_append, or_imp, forall_and] at inside
    exact .query (ctesSelectwise_listed ctes inside.1) (bodySelectwise_listed body inside.2)

theorem ctesSelectwise_listed : ∀ {ctes ctes' : List (Cte Nat)},
    CtesSelectwise projects filters ctes ctes' → (∀ n ∈ g.ctesCompared ctes, n ∈ all) →
      CtesSelectwise projects (g.Listed all filters) ctes ctes'
  | _, _, .nil, _ => .nil
  | _, _, .cons query ctes, inside => by
    simp only [ctesCompared, List.mem_append, or_imp, forall_and] at inside
    exact .cons (selectwise_listed query inside.1) (ctesSelectwise_listed ctes inside.2)

theorem bodySelectwise_listed : ∀ {body body' : SetExpr Nat},
    BodySelectwise projects filters body body' → (∀ n ∈ g.bodyCompared body, n ∈ all) →
      BodySelectwise projects (g.Listed all filters) body body'
  | _, _, .select projection sources filter, inside => by
    simp only [bodyCompared, selectCompared, List.mem_append, or_imp, forall_and] at inside
    exact .select projection (sourcesSelectwise_listed sources inside.1) ⟨filter, inside.2⟩
  | _, _, .query query, inside => by
    simp only [bodyCompared] at inside
    exact .query (selectwise_listed query inside)
  | _, _, .operation left right, inside => by
    simp only [bodyCompared, List.mem_append, or_imp, forall_and] at inside
    exact .operation (bodySelectwise_listed left inside.1) (bodySelectwise_listed right inside.2)
  | _, _, .kept closed, _ => .kept closed

theorem sourcesSelectwise_listed : ∀ {items items' : List (FromItem Nat)},
    SourcesSelectwise projects filters items items' → (∀ n ∈ g.sourcesCompared items, n ∈ all) →
      SourcesSelectwise projects (g.Listed all filters) items items'
  | _, _, .nil, _ => .nil
  | _, _, .cons relation joins items, inside => by
    simp only [sourcesCompared, sourceCompared, List.mem_append, or_imp, forall_and] at inside
    exact .cons (factorSelectwise_listed relation inside.1.1)
      (joinsSelectwise_listed joins inside.1.2) (sourcesSelectwise_listed items inside.2)

theorem joinsSelectwise_listed : ∀ {joins joins' : List (Join Nat)},
    JoinsSelectwise projects filters joins joins' → (∀ n ∈ g.joinsCompared joins, n ∈ all) →
      JoinsSelectwise projects (g.Listed all filters) joins joins'
  | _, _, .nil, _ => .nil
  | _, _, .cons relation joins, inside => by
    simp only [joinsCompared, List.mem_append, or_imp, forall_and] at inside
    exact .cons (factorSelectwise_listed relation inside.1) (joinsSelectwise_listed joins inside.2)

theorem factorSelectwise_listed : ∀ {factor factor' : TableFactor Nat},
    FactorSelectwise projects filters factor factor' → (∀ n ∈ g.factorCompared factor, n ∈ all) →
      FactorSelectwise projects (g.Listed all filters) factor factor'
  | _, _, .table, _ => .table
  | _, _, .derived query, inside => by
    simp only [factorCompared] at inside
    exact .derived (selectwise_listed query inside)
  | _, _, .nested relation joins, inside => by
    simp only [factorCompared, sourceCompared, List.mem_append, or_imp, forall_and] at inside
    exact .nested (factorSelectwise_listed relation inside.1)
      (joinsSelectwise_listed joins inside.2)

end

end Selects

theorem FilterSealed.compared {filter filter' : Option (Expr Nat)}
    (overwrite : g.options.overwrite = true) (run : g.FilterSealed scope filter filter')
    (inside : ∀ n ∈ g.filterCompared scope filter, n ∈ all) :
    List.Forall₂ (g.Compared scope all) (filter.toList.flatMap Expr.comparisons)
      (filter'.toList.flatMap Expr.comparisons) := by
  cases run with
  | none => exact .nil
  | some _ predicate =>
    simp only [filterCompared, overwrite, if_true] at inside
    simpa using predicate.compared inside
  | kept off =>
    rw [overwrite] at off
    cases off

end Sealing

section ByIndex

variable (g : Sealing) (input output : Nat → Option Json)

/-- A value with a text gives way to one with the index of that text. -/
def TextIndexed (e e' : Expr Nat) : Prop :=
  ∀ text, e.textWith input = some text →
    ∃ index, g.handler.index text = .ok index ∧ e'.textWith output = some index

/-- A sensitive column is read from its index column, and compared with indexes. -/
def ByIndex (scope : List String) (before after : Comparison Nat) : Prop :=
  ∀ qualifier name c, before.subject = .column qualifier name →
    g.Stands scope ⟨qualifier, name⟩ c →
      after.subject = .column qualifier { name with text := c.index } ∧
        List.Forall₂ (TextIndexed g input output) before.values after.values

def FilterByIndex (scope : List String) (filter filter' : Option (Expr Nat)) : Prop :=
  List.Forall₂ (ByIndex g input output scope) (filter.toList.flatMap Expr.comparisons)
    (filter'.toList.flatMap Expr.comparisons)

/-- All filters of a statement that are sealed. -/
def FiltersByIndex : Statement Nat → Statement Nat → Prop
  | .update x, .update x' => FilterByIndex g input output [] x.filter x'.filter
  | .delete x, .delete x' => FilterByIndex g input output [] x.filter x'.filter
  | .query q, .query q' =>
    Selectwise (fun _ _ _ => True) (fun sources => FilterByIndex g input output (scopeOf sources))
      q q'
  | t, t' => t'.filter = t.filter

variable {g : Sealing} {input output : Nat → Option Json} {all : List Nat}

theorem Sealing.ValueCompared.text
    (bound : ∀ n ∈ all, ∀ value text, input n = some value → value.plain? = some (some text) →
      ∃ index, g.handler.index text = .ok index ∧ output n = some (.string index))
    {e e' : Expr Nat} (compared : g.ValueCompared all e e') : TextIndexed g input output e e' := by
  intro text known
  unfold Expr.textWith at known
  split at known
  · rename_i literal operand
    cases known
    obtain ⟨v, bare, literal⟩ := Operand.ofExpr?_eq_some.mp operand
    obtain ⟨v', bare', indexed, -⟩ := compared v bare
    cases indexed with
    | @literal text' index literal' indexed =>
      rw [literal] at literal'
      cases literal'
      refine ⟨index, indexed, ?_⟩
      rw [Expr.textWith, bare']
      rfl
    | kept other => exact absurd literal (other text)
  · rename_i n operand
    obtain ⟨v, bare, placeholder⟩ := Operand.ofExpr?_eq_some.mp operand
    obtain ⟨v', bare', indexed, listed⟩ := compared v bare
    obtain rfl := Operand.ofValue?_placeholder.mp placeholder
    obtain ⟨value, read, plain⟩ := Option.bind_eq_some_iff.mp known
    obtain ⟨index, handled, there⟩ :=
      bound n (listed n rfl) value text read (Option.join_eq_some_iff.mp plain)
    cases indexed with
    | literal other => cases other
    | kept _ =>
      refine ⟨index, handled, ?_⟩
      rw [Expr.textWith, bare']
      simp [Operand.ofExpr?, Operand.ofValue?, there, Json.plain?]
  · cases known

theorem Sealing.Compared.byIndex {scope : List String}
    (bound : ∀ n ∈ all, ∀ value text, input n = some value → value.plain? = some (some text) →
      ∃ index, g.handler.index text = .ok index ∧ output n = some (.string index))
    {before after : Comparison Nat} (compared : g.Compared scope all before after) :
    ByIndex g input output scope before after := by
  intro qualifier name c same stands
  obtain ⟨renamed, values⟩ := compared qualifier name c same stands
  exact ⟨renamed, values.imp fun _ _ value => value.text bound⟩

theorem Sealing.Emits.filtersByIndex {bound : BoundStatement} {supply : Supply} {t : Statement}
    {tree : Statement Nat} {sealed : Sealed} (emits : g.Emits bound supply t tree sealed)
    (fresh : supply.Fresh bound) (inputs : g.inputs = bound.mappings)
    (overwrite : g.options.overwrite = true) :
    FiltersByIndex g (inputValue bound) (outputValue tree sealed.bound) t.number.1 tree := by
  have pass := emits.treeSealed
  have bindings : ∀ n ∈ g.compared t.number.1, ∀ value text, inputValue bound n = some value →
      value.plain? = some (some text) → ∃ index, g.handler.index text = .ok index ∧
        outputValue tree sealed.bound n = some (.string index) :=
    fun n listed value text read => emits.outputValue_indexed fresh inputs listed read
  generalize t.number.1 = numbered at pass bindings ⊢
  cases pass with
  | insert insert => cases insert <;> rfl
  | update _ filter =>
    have compared := filter.compared overwrite fun _ member => member
    exact compared.imp fun _ _ side => side.byIndex bindings
  | delete filter =>
    have compared := filter.compared overwrite fun _ member => member
    exact compared.imp fun _ _ side => side.byIndex bindings
  | @query q q' selects =>
    have listed : Selectwise g.ProjectionSealed (g.Listed (g.queryCompared q) g.SelectFilterSealed)
        q q' := selectwise_listed selects fun _ member => member
    refine listed.imp ⟨fun _ => trivial, fun filter => ?_⟩
    have compared := filter.1.compared overwrite filter.2
    exact compared.imp fun _ _ side => side.byIndex bindings
  | explain => rfl
  | other => rfl

end ByIndex

open Sealing in
/-- Where filters are turned to index columns, what is compared with one is turned to indexes: the
literals, and what the placeholders are bound to. -/
theorem comparisons_by_index (active : ActiveColumns) (handler : Handler) (writeSource : Bool)
    (resultMaps : List ResultMap) (bound : BoundStatement) (t : Statement) (supply : Supply)
    (fresh : supply.Fresh bound) (sealed : Sealed)
    (succeeded : (sealBound active handler ⟨true, writeSource⟩ resultMaps bound t supply).1 =
      .ok sealed) :
    ∃ tree,
      Emits ⟨active, handler, ⟨true, writeSource⟩, resultMaps, bound.mappings⟩ bound supply t tree
        sealed ∧
      FiltersByIndex ⟨active, handler, ⟨true, writeSource⟩, resultMaps, bound.mappings⟩
        (inputValue bound) (outputValue tree sealed.bound) t.number.1 tree := by
  obtain ⟨tree, emits⟩ := exists_emits succeeded
  exact ⟨tree, emits, emits.filtersByIndex fresh rfl rfl⟩

namespace Sample

/-- `DELETE FROM users` with a filter. -/
def deletion {ν : Type} (filter : Expr ν) : Statement ν :=
  .delete ⟨[], true, [⟨.table [.bare "users"] false [] none, []⟩], [], some filter, []⟩

def deletionByEmail : Statement :=
  deletion (.binary (.binary (.column [] (.bare "id")) .equal .anonymous) .and
    (.binary (.column [] (.bare "email")) .equal .anonymous))

def deletionBound : BoundStatement :=
  { bound with sql := "DELETE FROM users WHERE id = ? AND email = ?" }

def deletionResult : Sealed :=
  ⟨⟨"DELETE FROM users WHERE id = ? AND email_idx = ?", [.ofProperty "id", .text "x"],
    bound.object, [("x", .string "~a@x")]⟩, []⟩

theorem deletionFresh : supply.Fresh deletionBound :=
  ⟨fresh.distinct, fresh.plain, fresh.additional, fresh.roots⟩

/-- `DELETE FROM users WHERE (email) = 'x'`, with the column to compare with. -/
def nestedDeletion {ν : Type} (column : String) : Statement ν :=
  deletion (.binary (.nested (.column [] (.bare column))) .equal (.value (.string "x")))

def nestedBound : BoundStatement := ⟨"DELETE FROM users WHERE (email) = 'x'", [], .null, []⟩

def nestedResult : Sealed := ⟨⟨"DELETE FROM users WHERE (email_idx) = 'x'", [], .null, []⟩, []⟩

end Sample

open Sample Sealing in
theorem comparisons_by_index_deletion : supply.Fresh deletionBound ∧
    (sealBound active handler ⟨true, false⟩ [] deletionBound deletionByEmail supply).1 =
      .ok deletionResult ∧
    ∃ tree,
      Emits ⟨active, handler, ⟨true, false⟩, [], deletionBound.mappings⟩ deletionBound
        supply deletionByEmail tree deletionResult ∧
      FiltersByIndex ⟨active, handler, ⟨true, false⟩, [], deletionBound.mappings⟩
        (inputValue deletionBound) (outputValue tree deletionResult.bound)
        deletionByEmail.number.1 tree := by
  have succeeded : (sealBound active handler ⟨true, false⟩ [] deletionBound deletionByEmail
      supply).1 = .ok deletionResult := by
    with_unfolding_all rfl
  exact ⟨deletionFresh, succeeded, comparisons_by_index active handler false [] deletionBound
    deletionByEmail supply deletionFresh deletionResult succeeded⟩

/-- The same of a column in parentheses. -/
def BareByIndex (g : Sealing) (input output : Nat → Option Json) (scope : List String)
    (before after : Comparison Nat) : Prop :=
  ∀ qualifier name c, before.subject.bare = .column qualifier name →
    g.Stands scope ⟨qualifier, name⟩ c →
      after.subject.bare = .column qualifier { name with text := c.index } →
        List.Forall₂ (TextIndexed g input output) before.values after.values

open Sample Sealing in
/-- A column in parentheses is renamed as well, and yet compared with the text. -/
theorem nested_column_compared_with_text :
    (sealBound active handler ⟨true, false⟩ [] nestedBound (nestedDeletion "email") supply).1 =
      .ok nestedResult ∧
    Emits ⟨active, handler, ⟨true, false⟩, [], []⟩ nestedBound supply
      (nestedDeletion "email") (nestedDeletion "email_idx") nestedResult ∧
    ¬ List.Forall₂
      (BareByIndex ⟨active, handler, ⟨true, false⟩, [], []⟩ (inputValue nestedBound)
        (outputValue (nestedDeletion "email_idx") nestedResult.bound) [])
      ((nestedDeletion "email").filter.toList.flatMap Expr.comparisons)
      ((nestedDeletion "email_idx").filter.toList.flatMap Expr.comparisons) := by
  refine ⟨?_, ⟨rfl, Sealing.draftOf nestedBound supply, ?_, rfl⟩, fun byIndex => ?_⟩
  · with_unfolding_all rfl
  · with_unfolding_all rfl
  · cases byIndex with
    | cons side _ =>
      have values := side [] (.bare "email") ⟨"users", "email", "email_enc", "email_idx"⟩ rfl
        ⟨by decide, by decide⟩ rfl
      cases values with
      | cons value _ =>
        obtain ⟨index, indexed, there⟩ := value "x" rfl
        cases indexed
        exact absurd there (by decide)

end SealedColumns

import SealedColumns.Proofs.Emission
import SealedColumns.Proofs.Entries
import SealedColumns.Proofs.Numbering
import SealedColumns.Proofs.Queries

/-!
The expressions that read back from their own text, and that they still do so when sealing has
renamed columns in them and put other literals into them.
-/
namespace SealedColumns

namespace Sql

def Value.restored (v : Value Nat) : Value := v.remark fun _ => .anonymous

def Query.restored (q : Query Nat) : Query := (q.walk restoring ()).1

/-- The expression starts with a column, a value, a parenthesis or a negation, so that NOT may stand
in front of it. -/
def Expr.isNegatable {ν : Type} : Expr ν → Bool
  | .column _ _ | .value _ | .nested _ | .unary .not _ => true
  | .isNull _ e | .binary e _ _ | .pattern _ _ e _ _ | .inList _ e _ | .inQuery _ e _ =>
    e.isNegatable
  | _ => false

/-- Expressions that are read back with `n` levels left. Their operators go on from the left and end
at the right: `floor` is how tightly what follows may bind at most, and `ceiling` how tightly what
stands in front of them. Parts that sealing leaves alone only have to read back. -/
inductive Legible (d : Dialect) : Nat → Expr Nat → Nat → Nat → Prop where
  | column {n floor ceiling : Nat} {qualifier : List Ident} {name first : Ident} :
      (qualifier ++ [name]).head? = some first → first.isColumn d = true →
      (∀ ident ∈ qualifier ++ [name], ident.isPlain d = true) → qualifier.length ≤ n →
        Legible d n (.column qualifier name) floor ceiling
  | value {n floor ceiling : Nat} {v : Value Nat} : v.isPlain d = true →
      Legible d n (.value v) floor ceiling
  | closed {n floor ceiling : Nat} {e : Expr Nat} : e.isClosed = true → e.isOperand = false →
      ExprReads d n e.restored floor ceiling → Legible d n e floor ceiling
  | nested {n floor ceiling floor' ceiling' : Nat} {e : Expr Nat} :
      Legible d n e floor ceiling → 0 < ceiling → Legible d (n + 1) (.nested e) floor' ceiling'
  | not {n floor ceiling ceiling' : Nat} {e : Expr Nat} :
      Legible d n e floor ceiling → e.isNegatable = true → (precedence d).not < ceiling →
        Legible d (n + 1) (.unary .not e) (min (precedence d).not floor) ceiling'
  | isNull {n floor ceiling floor' : Nat} {negated : Bool} {e : Expr Nat} :
      Legible d n e floor ceiling → (precedence d).is ≤ floor →
        Legible d n (.isNull negated e) floor' (min (precedence d).is ceiling)
  | binary {n floor ceiling floor' ceiling' : Nat} {l r : Expr Nat} {op : BinaryOp} :
      op.isPlain = true → Legible d (n + 1) l floor ceiling → Legible d n r floor' ceiling' →
      op.level (precedence d) ≤ floor → op.level (precedence d) < ceiling' →
        Legible d (n + 1) (.binary l op r) (min (op.level (precedence d)) floor')
          (min (op.level (precedence d)) ceiling)
  | pattern {n floor ceiling floor' ceiling' : Nat} {l r : Expr Nat} {kind : PatternKind}
      {negated : Bool} :
      Legible d (n + 1) l floor ceiling → Legible d n r floor' ceiling' →
      (precedence d).like ≤ floor → (precedence d).like < ceiling' →
        Legible d (n + 1) (.pattern kind negated l r none) (min (precedence d).like floor')
          (min (precedence d).like ceiling)
  | inList {n floor ceiling floor' : Nat} {negated : Bool} {e : Expr Nat} {vs : List (Value Nat)} :
      Legible d (n + 1) e floor ceiling → vs ≠ [] ∨ d.hasEmptyInList = true →
      (∀ v ∈ vs, v.isPlain d = true) → (precedence d).between ≤ floor →
        Legible d (n + 1) (.inList negated e (vs.map .value)) floor'
          (min (precedence d).between ceiling)
  | inQuery {n floor ceiling floor' : Nat} {negated : Bool} {e : Expr Nat} {q : Query Nat} :
      Legible d (n + 1) e floor ceiling → QueryReads d n q.restored →
      (precedence d).between ≤ floor →
        Legible d (n + 1) (.inQuery negated e q) floor' (min (precedence d).between ceiling)

variable {d : Dialect} {n floor ceiling : Nat} {e : Expr Nat}

theorem isPlain_restored (v : Value Nat) : v.restored.isPlain d = v.isPlain d := by
  cases v with
  | placeholder mark => cases mark <;> rfl
  | _ => rfl

theorem walkExprs_values (vs : List (Value Nat)) :
    (walkExprs restoring (vs.map .value) ()).1 = (vs.map Value.restored).map .value := by
  induction vs with
  | nil => rfl
  | cons v vs ih =>
    simp only [List.map_cons, walkExprs, ih]
    rfl

theorem isNegatable_closed (closed : e.isClosed = true) (other : e.isOperand = false) :
    e.isNegatable = false := by
  cases e with
  | value => cases other
  | star | existence | subquery | framed => rfl
  | _ => cases closed

theorem Legible.readsAs (legible : Legible d n e floor ceiling) :
    ReadsAs d n e.isNegatable e.restored floor ceiling := by
  induction legible with
  | column head column plain deep => exact (column_reads head column plain deep).readsAs _ _ _
  | @value _ _ _ v plain =>
    exact (value_reads _ ((isPlain_restored v).trans plain)).readsAs _ _ _
  | closed closed other reads =>
    rw [isNegatable_closed closed other]
    exact reads
  | nested _ positive inner => exact (inner.nested positive).readsAs _ _ _
  | not _ negatable tight inner =>
    rw [negatable] at inner
    exact inner.not tight _
  | isNull _ loose inner => exact inner.continue (continues_isNull _ loose _)
  | binary plain _ _ loose tight left right =>
    obtain ⟨_, continues⟩ := right.expr.behind_operator plain loose tight
    exact left.continue continues
  | pattern _ _ loose tight left right =>
    obtain ⟨_, continues⟩ := right.expr.behind_like _ _ loose tight
    exact left.continue continues
  | @inList _ _ _ floor' negated e vs _ listed plain loose inner =>
    have values : ∀ v ∈ vs.map Value.restored, v.isPlain d = true :=
      List.forall_mem_map.mpr fun v member => (isPlain_restored v).trans (plain v member)
    obtain ⟨_, continues⟩ := exists_continues_inList negated (by simpa using listed) values loose
      floor'
    have restored : Expr.restored (.inList negated e (vs.map .value)) =
        .inList negated e.restored ((vs.map Value.restored).map .value) :=
      congrArg (Expr.inList negated e.restored) (walkExprs_values vs)
    rw [restored]
    exact inner.continue continues
  | @inQuery _ _ _ floor' negated _ _ _ query loose inner =>
    obtain ⟨_, continues⟩ := exists_continues_inQuery negated query loose floor'
    exact inner.continue continues

theorem Legible.reads (legible : Legible d n e floor ceiling) :
    ExprReads d n e.restored floor ceiling := legible.readsAs.expr

theorem Ident.isColumn_rename {ident : Ident} {text : String} (column : ident.isColumn d = true)
    (bare : (Ident.bare text).isColumn d = true) :
    Ident.isColumn d { ident with text := text } = true := by
  obtain ⟨old, quote⟩ := ident
  simp only [Ident.isColumn, Bool.and_eq_true] at column bare ⊢
  refine ⟨⟨Ident.isPlain_rename column.1.1 bare.1.1, ?_⟩, ?_⟩
  · cases quote with
    | none => exact bare.1.2
    | some quote => exact (by decide : (!(specialWords ++ notOpeners).contains "") = true)
  · cases quote with
    | none => exact bare.2
    | some quote => exact (by decide : (!isListedType "") = true)

theorem renamed_column {qualifier : List Ident} {name first : Ident} {text : String}
    (bare : (Ident.bare text).isColumn d = true) (head : (qualifier ++ [name]).head? = some first)
    (column : first.isColumn d = true)
    (plain : ∀ ident ∈ qualifier ++ [name], ident.isPlain d = true) :
    ∃ first', (qualifier ++ [{ name with text := text }]).head? = some first' ∧
      first'.isColumn d = true ∧
      ∀ ident ∈ qualifier ++ [{ name with text := text }], ident.isPlain d = true := by
  rw [List.forall_mem_append, List.forall_mem_singleton] at plain
  have isPlain : (Ident.bare text).isPlain d = true := by
    simp only [Ident.isColumn, Bool.and_eq_true] at bare
    exact bare.1.1
  have all : ∀ ident ∈ qualifier ++ [{ name with text := text }], ident.isPlain d = true := by
    rw [List.forall_mem_append, List.forall_mem_singleton]
    exact ⟨plain.1, Ident.isPlain_rename plain.2 isPlain⟩
  cases qualifier with
  | nil =>
    cases head
    exact ⟨_, rfl, Ident.isColumn_rename column bare, all⟩
  | cons ident qualifier =>
    cases head
    exact ⟨_, rfl, column, all⟩

end Sql

open Sql

/-- The texts that a handler gives out have nothing in them that a literal is written differently
for. -/
structure Handler.WritesPlain (handler : Handler) (d : Dialect) : Prop where
  encrypted : ∀ {text cipher : String} {supply : Supply},
    (handler.encrypt text supply).1 = .ok cipher → isPlainLiteral d cipher = true
  indexed : ∀ {text index : String}, handler.index text = .ok index →
    isPlainLiteral d index = true

/-- What sealing writes reads back: names of columns that may stand without quotes, and literals
of the handler's texts. -/
structure Sealing.WritesPlain (g : Sealing) (d : Dialect) : Prop
    extends g.handler.WritesPlain d where
  target : ∀ c ∈ g.active.columns, (Ident.bare c.target).isColumn d = true
  index : ∀ c ∈ g.active.columns, (Ident.bare c.index).isColumn d = true

namespace Sealing

variable {g : Sealing} {d : Dialect} {scope : List String} {n floor ceiling : Nat}
  {e e' : Expr Nat}

theorem sensitive?_mem {c : SensitiveColumn} (sensitive : g.sensitive? scope e = some c) :
    c ∈ g.active.columns := by
  unfold sensitive? at sensitive
  split at sensitive
  · split at sensitive
    · cases sensitive
    · rcases ActiveColumns.getIn?_eq_some sensitive with ⟨member, -⟩ | ⟨-, found⟩
      · exact member
      · exact (ActiveColumns.mem_of_get? found).1
  · cases sensitive

theorem ValueIndexed.isPlain (writes : g.WritesPlain d) {v v' : Value Nat}
    (run : g.ValueIndexed v v') (plain : v.isPlain d = true) : v'.isPlain d = true := by
  cases run with
  | literal _ indexed => exact writes.indexed indexed
  | kept _ => exact plain

theorem OperandIndexed.legible (writes : g.WritesPlain d) : ∀ {e e' : Expr Nat}
    {n floor ceiling : Nat}, g.OperandIndexed e e' → Legible d n e floor ceiling →
      Legible d n e' floor ceiling
  | _, _, _, _, _, .value indexed, legible => by
    cases legible with
    | value plain => exact .value (indexed.isPlain writes plain)
    | closed _ other _ => cases other
  | _, _, _, _, _, .nested inner, legible => by
    cases legible with
    | nested legible positive => exact .nested (inner.legible writes legible) positive
    | closed closed _ _ => cases closed
  | _, _, _, _, _, .call _, .closed closed _ _
  | _, _, _, _, _, .argument _, .closed closed _ _ => by cases closed
  | _, _, _, _, _, .kept _, legible => legible

theorem OperandIndexedIf.legible (writes : g.WritesPlain d) {indexed : Bool}
    (run : g.OperandIndexedIf indexed e e') (legible : Legible d n e floor ceiling) :
    Legible d n e' floor ceiling := by
  cases indexed with
  | true => exact OperandIndexed.legible writes run legible
  | false =>
    cases run
    exact legible

theorem OperandsIndexed.values (writes : g.WritesPlain d) {vs : List (Value Nat)}
    {es : List (Expr Nat)} (run : g.OperandsIndexed (vs.map .value) es)
    (plain : ∀ v ∈ vs, v.isPlain d = true) :
    ∃ vs' : List (Value Nat), es = vs'.map .value ∧ vs'.length = vs.length ∧
      ∀ v ∈ vs', v.isPlain d = true := by
  induction vs generalizing es with
  | nil =>
    cases run
    exact ⟨[], rfl, rfl, by simp⟩
  | cons v vs ih =>
    rw [List.forall_mem_cons] at plain
    cases run with
    | cons head tail =>
      obtain ⟨vs', rfl, length, all⟩ := ih tail plain.2
      cases head with
      | @value _ v' indexed =>
        refine ⟨v' :: vs', rfl, congrArg Nat.succ length, List.forall_mem_cons.mpr ⟨?_, all⟩⟩
        exact indexed.isPlain writes plain.1
      | kept other => cases other

theorem OperandsIndexedIf.values (writes : g.WritesPlain d) {indexed : Bool}
    {vs : List (Value Nat)} {es : List (Expr Nat)}
    (run : g.OperandsIndexedIf indexed (vs.map .value) es) (plain : ∀ v ∈ vs, v.isPlain d = true) :
    ∃ vs' : List (Value Nat), es = vs'.map .value ∧ vs'.length = vs.length ∧
      ∀ v ∈ vs', v.isPlain d = true := by
  cases indexed with
  | true => exact OperandsIndexed.values writes run plain
  | false =>
    cases run
    exact ⟨vs, rfl, rfl, plain⟩

theorem readIndex_legible (writes : g.WritesPlain d) {qualifier : List Ident} {name first : Ident}
    (head : (qualifier ++ [name]).head? = some first) (column : first.isColumn d = true)
    (plain : ∀ ident ∈ qualifier ++ [name], ident.isPlain d = true) (deep : qualifier.length ≤ n) :
    Legible d n (g.readIndex scope (.column qualifier name)) floor ceiling := by
  unfold readIndex
  cases sensitive : g.sensitive? scope (.column qualifier name) with
  | none => exact .column head column plain deep
  | some c =>
    obtain ⟨first, head, column, plain⟩ :=
      renamed_column (writes.index c (sensitive?_mem sensitive)) head column plain
    exact .column head column plain deep

theorem OperandIndexed.isNegatable (run : g.OperandIndexed e e') :
    e'.isNegatable = e.isNegatable := by
  cases run <;> rfl

theorem OperandIndexedIf.isNegatable {indexed : Bool} (run : g.OperandIndexedIf indexed e e') :
    e'.isNegatable = e.isNegatable := by
  cases indexed with
  | true => exact OperandIndexed.isNegatable run
  | false => exact congrArg Expr.isNegatable run

theorem readIndex_isNegatable (qualifier : List Ident) (name : Ident) :
    (g.readIndex scope (.column qualifier name)).isNegatable = true := by
  unfold readIndex
  cases g.sensitive? scope (.column qualifier name) <;> rfl

theorem PredicateSealed.isNegatable : ∀ {e e' : Expr Nat}, g.PredicateSealed scope e e' →
    e'.isNegatable = e.isNegatable
  | _, _, .nested _ | _, _, .call _ | _, _, .argument _ | _, _, .kept _ => rfl
  | _, _, @PredicateSealed.unary _ _ op _ _ _ => by cases op <;> rfl
  | _, _, .isNull inner => inner.isNegatable
  | _, _, .binary _ left first _ => by
    have same := OperandIndexedIf.isNegatable left
    exact first.isNegatable.trans same
  | _, _, .pattern _ subject => subject.isNegatable
  | _, _, .inList _ subject | _, _, .inQuery subject => subject.isNegatable
  | _, _, .column => readIndex_isNegatable _ _

theorem PredicateSealed.legible (writes : g.WritesPlain d) : ∀ {e e' : Expr Nat}
    {n floor ceiling : Nat}, g.PredicateSealed scope e e' → Legible d n e floor ceiling →
      Legible d n e' floor ceiling
  | _, _, _, _, _, .nested inner, legible => by
    cases legible with
    | nested legible positive => exact .nested (inner.legible writes legible) positive
    | closed closed _ _ => cases closed
  | _, _, _, _, _, .unary inner, legible => by
    cases legible with
    | not legible negatable tight =>
      exact .not (inner.legible writes legible) (inner.isNegatable.trans negatable) tight
    | closed closed _ _ => cases closed
  | _, _, _, _, _, .isNull inner, legible => by
    cases legible with
    | isNull legible loose => exact .isNull (inner.legible writes legible) loose
    | closed closed _ _ => cases closed
  | _, _, _, _, _, .binary right left first second, legible => by
    cases legible with
    | binary plain l r loose tight =>
      exact .binary plain (first.legible writes (OperandIndexedIf.legible writes left l))
        (second.legible writes (OperandIndexedIf.legible writes right r)) loose tight
    | closed closed _ _ => cases closed
  | _, _, _, _, _, .pattern operand subject, legible => by
    cases legible with
    | pattern l r loose tight =>
      exact .pattern (subject.legible writes l) (OperandIndexedIf.legible writes operand r) loose
        tight
    | closed closed _ _ => cases closed
  | _, _, _, _, _, .inList items subject, legible => by
    cases legible with
    | inList legible listed plain loose =>
      obtain ⟨vs, rfl, length, all⟩ := OperandsIndexedIf.values writes items plain
      refine .inList (subject.legible writes legible) (listed.imp_left fun nonempty => ?_) all loose
      rw [← List.length_pos_iff, length, List.length_pos_iff]
      exact nonempty
    | closed closed _ _ => cases closed
  | _, _, _, _, _, .column, legible => by
    cases legible with
    | column head column plain deep => exact readIndex_legible writes head column plain deep
    | closed closed _ _ => cases closed
  | _, _, _, _, _, .inQuery subject, legible => by
    cases legible with
    | inQuery legible query loose => exact .inQuery (subject.legible writes legible) query loose
    | closed closed _ _ => cases closed
  | _, _, _, _, _, .call _, .closed closed _ _
  | _, _, _, _, _, .argument _, .closed closed _ _ => by cases closed
  | _, _, _, _, _, .kept _, legible => legible

end Sealing

end SealedColumns

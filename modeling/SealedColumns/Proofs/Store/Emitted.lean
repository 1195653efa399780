import SealedColumns.Proofs.Bodies
import SealedColumns.Proofs.Commands
import SealedColumns.Proofs.Parsed
import SealedColumns.Proofs.Store.Mirror

/-!
What a store reads from the text of a sealed request. Sealing changes names and values and leaves
the form of a condition, so its operators bind in the new text as they did in the text that it was
read from.
-/
namespace SealedColumns.Store

open Sql Parse

/-- Atoms of one form, whatever they name and compare. -/
inductive Atom.Alike {α β : Type} : Atom α → Atom β → Prop where
  | equal {negated flipped negated' flipped' : Bool} {name name' : String} {value : α}
      {value' : β} :
      Alike (.equal negated flipped name value) (.equal negated' flipped' name' value')
  | among {negated negated' : Bool} {name name' : String} {values : List α} {values' : List β} :
      (values' = [] → values = []) →
        Alike (.among negated name values) (.among negated' name' values')
  | isNull {negated negated' : Bool} {name name' : String} :
      Alike (.isNull negated name) (.isNull negated' name')

def Entry.IsPlain {ν : Type} (d : Dialect) (e : Entry ν) : Prop := e.toValue.isPlain d = true

instance {ν : Type} (d : Dialect) (e : Entry ν) : Decidable (e.IsPlain d) :=
  inferInstanceAs (Decidable (e.toValue.isPlain d = true))

/-- Names and values that read as they are printed. -/
structure Atom.IsPlain {ν : Type} (d : Dialect) (a : Atom (Entry ν)) : Prop where
  column : (Ident.bare a.column).isColumn d = true
  entries : ∀ e ∈ a.entries, e.IsPlain d

section Conditions

variable {d : Dialect} {n level next : Nat} {tokens rest : List Lexeme}

theorem columnExpr_reads {name : String} (n : Nat) (column : (Ident.bare name).isColumn d = true) :
    OperandReads d n (columnExpr name) := by
  have plain : (Ident.bare name).isPlain d = true := by
    simp only [Ident.isColumn, Bool.and_eq_true] at column
    exact column.1.1
  exact column_reads rfl column (by simpa using plain) (Nat.zero_le _)

theorem entry_reads {e : Entry} (n : Nat) (plain : e.IsPlain d) : OperandReads d n e.toExpr :=
  value_reads n plain

theorem binary_reads {l r : Expr} {op : BinaryOp} (plain : op.isPlain = true)
    (left : OperandReads d (n + 1) l) (right : OperandReads d n r) :
    ReadsAs d (n + 1) true (.binary l op r) (op.level (precedence d))
      (op.level (precedence d)) := by
  have second : ExprReads d n r (op.level (precedence d)) (op.level (precedence d) + 1) :=
    right.readsAs ..
  obtain ⟨tail, continues⟩ :=
    second.behind_operator (l := l) plain (Nat.le_refl _) (Nat.lt_succ_self _)
  rw [Nat.min_self] at continues
  have reads := (left.readsAs true _ (op.level (precedence d))).continue continues
  rwa [Nat.min_self] at reads

theorem loose_bounded (d : Dialect) (tokens : List Lexeme) : ∃ floor, Loose d floor tokens := by
  obtain ⟨found, peeked⟩ := looks_peekInfix (precedence d) tokens
  refine ⟨found.elim 0 Prod.fst, found, peeked, ?_⟩
  rintro o rfl
  exact Nat.le_refl _

theorem Loose.min {low high : Nat} (first : Loose d low rest) (second : Loose d high rest) :
    Loose d (min low high) rest := by
  obtain ⟨found, peeked, bound⟩ := first
  obtain ⟨found', peeked', bound'⟩ := second
  rw [peeked] at peeked'
  cases peeked'
  exact ⟨found, peeked, fun o member => Nat.le_min.mpr ⟨bound o member, bound' o member⟩⟩

theorem Loose.bounds {floor : Nat} {form : Infix} (loose : Loose d floor tokens)
    (peeked : peekInfix (precedence d) tokens = .ok (some (next, form), tokens)) :
    next ≤ floor := by
  obtain ⟨found, peeked', bound⟩ := loose
  rw [peeked] at peeked'
  cases peeked'
  exact bound _ rfl

/-- The expression reads where it came from: below `level`, and up to what is next. -/
def ReadsThere (d : Dialect) (n level : Nat) (e : Expr) (rest : List Lexeme) : Prop :=
  ∃ floor ceiling, ReadsAs d n true e floor ceiling ∧ level < ceiling ∧ Loose d floor rest

/-- What is read in the place of a condition that was parsed, if it has the same form. -/
def Reread (d : Dialect) (n level : Nat) (e : Expr) (rest : List Lexeme) : Prop :=
  ∀ c c' : Condition (Atom Entry), e = c.toExpr → Condition.Related Atom.Alike c c' →
    (∀ a ∈ c'.atoms, a.IsPlain d) → ReadsThere d n level c'.toExpr rest

/-- The expressions that are parsed one level deeper are read again. -/
def RereadBelow (d : Dialect) (n : Nat) : Prop :=
  ∀ m level tokens e rest, n = m + 1 →
    parseExprAbove (nestedParsers d m) level tokens = .ok (e, rest) →
      Reread d m level e rest ∧ Loose d level rest

theorem expr_nested {e : Expr}
    (run : (nestedParsers d n).expr level tokens = .ok (e, rest)) :
    ∃ m, n = m + 1 ∧ parseExprAbove (nestedParsers d m) level tokens = .ok (e, rest) := by
  cases n with
  | zero => cases run
  | succ m => exact ⟨m, rfl, run⟩

theorem operand_reread {e : Expr} (inner : RereadBelow d n)
    (origin : OperandFrom (nestedParsers d n) e rest) : Reread d n level e rest := by
  rintro c c' rfl alike plain
  obtain ⟨floor, loose⟩ := loose_bounded d rest
  cases alike with
  | @atom a a' here =>
    cases here with
    | @equal negated flipped => cases flipped <;> cases origin
    | among | isNull => cases origin
  | and | or => cases origin
  | @nested c c' alike =>
    obtain ⟨tokens, rest', run⟩ := origin
    obtain ⟨m, rfl, run⟩ := expr_nested run
    obtain ⟨floor', ceiling, reads, positive, -⟩ := (inner m _ _ _ _ rfl run).1 c c' rfl alike plain
    exact ⟨floor, level + 1, (reads.nested positive).readsAs .., Nat.lt_succ_self _, loose⟩
  | @not c c' alike =>
    obtain ⟨tokens, run⟩ := origin
    rw [dialect_nestedParsers] at run
    obtain ⟨m, rfl, run⟩ := expr_nested run
    obtain ⟨again, stops⟩ := inner m _ _ _ _ rfl run
    obtain ⟨floor', ceiling, reads, tight, loose'⟩ := again c c' rfl alike plain
    exact ⟨_, level + 1, reads.not tight _, Nat.lt_succ_self _, Loose.min stops loose'⟩

/-- The operator of a comparison. -/
def comparison (negated : Bool) : BinaryOp := if negated then .notEqual else .equal

theorem comparison_level (negated : Bool) (p : Precedence) :
    (comparison negated).isPlain = true ∧ (comparison negated).level p = p.equal := by
  cases negated <;> exact ⟨rfl, rfl⟩

theorem toExpr_equal (negated flipped : Bool) (name : String) (value : Entry) :
    Atom.toExpr (.equal negated flipped name value) =
      if flipped then .binary value.toExpr (comparison negated) (columnExpr name)
      else .binary (columnExpr name) (comparison negated) value.toExpr := rfl

theorem equal_reads {negated flipped : Bool} {name : String} {value : Entry}
    (column : (Ident.bare name).isColumn d = true) (plain : value.IsPlain d) :
    ReadsAs d (n + 1) true (Atom.toExpr (.equal negated flipped name value)) (precedence d).equal
      (precedence d).equal := by
  obtain ⟨isPlain, level⟩ := comparison_level negated (precedence d)
  rw [toExpr_equal, ← level]
  cases flipped with
  | true => exact binary_reads isPlain (entry_reads _ plain) (columnExpr_reads _ column)
  | false => exact binary_reads isPlain (columnExpr_reads _ column) (entry_reads _ plain)

theorem atom_reread {left : Expr} {a a' : Atom Entry}
    (inner : RereadBelow d n)
    (tighter : level < next) (origin : InfixFrom (nestedParsers d n) next left a.toExpr rest)
    (alike : Atom.Alike a a') (plain : a'.IsPlain d) : ReadsThere d n level a'.toExpr rest := by
  obtain ⟨floor, loose⟩ := loose_bounded d rest
  obtain ⟨column, entries⟩ := plain
  cases alike with
  | @equal negated flipped negated' flipped' name name' value value' =>
    obtain ⟨binds, r, tokens, run⟩ : next = (precedence d).equal ∧
        ∃ r tokens, (nestedParsers d n).expr next tokens = .ok (r, rest) := by
      obtain ⟨isPlain, same⟩ := comparison_level negated (precedence d)
      rw [toExpr_equal] at origin
      cases flipped with
      | true =>
        obtain ⟨-, binds, tokens, run⟩ := origin
        exact ⟨(binds isPlain).trans (by rw [dialect_nestedParsers, same]), _, tokens, run⟩
      | false =>
        obtain ⟨-, binds, tokens, run⟩ := origin
        exact ⟨(binds isPlain).trans (by rw [dialect_nestedParsers, same]), _, tokens, run⟩
    obtain ⟨m, rfl, run⟩ := expr_nested run
    obtain ⟨-, stops⟩ := inner m _ _ _ _ rfl run
    rw [binds] at stops tighter
    exact ⟨_, _, equal_reads column (entries _ List.mem_cons_self), tighter, stops⟩
  | @among negated negated' name name' values values' empty =>
    obtain ⟨-, rfl, listed, tokens, query⟩ := origin
    rw [dialect_nestedParsers] at tighter listed
    cases n with
    | zero => cases query
    | succ n =>
      have listed' : values'.map Entry.toValue ≠ [] ∨ d.hasEmptyInList = true := by
        refine listed.imp_left fun nonempty none => nonempty ?_
        rw [empty (List.map_eq_nil_iff.mp none), List.map_nil]
      obtain ⟨tail, continues⟩ := exists_continues_inList (n := n) (e := columnExpr name') negated'
        listed' (List.forall_mem_map.mpr entries) (Nat.le_refl (precedence d).between) floor
      rw [List.map_map] at continues
      have reads := ((columnExpr_reads (n + 1) column).readsAs true (precedence d).between
        (precedence d).between).continue continues
      rw [Nat.min_self] at reads
      exact ⟨floor, _, reads, tighter, loose⟩
  | @isNull negated negated' name name' =>
    obtain ⟨-, rfl⟩ := origin
    rw [dialect_nestedParsers] at tighter
    have reads := ((columnExpr_reads n column).readsAs true (precedence d).is
      (precedence d).is).continue (continues_isNull negated' (Nat.le_refl _) floor)
    rw [Nat.min_self] at reads
    exact ⟨floor, _, reads, tighter, loose⟩

/-- A connective with the conditions that it connects. -/
theorem connected_reread {left l r l' r' : Expr} {op : BinaryOp} {form : Infix}
    (plain : op.isPlain = true) (tighter : level < next)
    (origin : InfixFrom (nestedParsers d n) next left (.binary l op r) rest)
    (peeked : peekInfix (precedence d) tokens = .ok (some (next, form), tokens))
    (first : ReadsThere d n level l' tokens)
    (second : ∀ m tokens, n = m + 1 →
      parseExprAbove (nestedParsers d m) next tokens = .ok (r, rest) →
        ReadsThere d m next r' rest ∧ Loose d next rest) :
    ReadsThere d n level (.binary l' op r') rest := by
  obtain ⟨-, binds, tokens', run⟩ := origin
  obtain ⟨m, rfl, run⟩ := expr_nested run
  obtain ⟨⟨floorR, ceilingR, right, tight, looseR⟩, stops⟩ := second m _ rfl run
  obtain ⟨floorL, ceilingL, left, below, looseL⟩ := first
  have level := binds plain
  rw [dialect_nestedParsers] at level
  have under := Loose.bounds looseL peeked
  rw [level] at under tight tighter stops
  obtain ⟨tail, continues⟩ := right.expr.behind_operator plain under tight
  exact ⟨_, _, left.continue continues, Nat.lt_min.mpr ⟨tighter, below⟩, Loose.min stops looseR⟩

theorem operator_reread {left e : Expr} {form : Infix}
    (inner : RereadBelow d n)
    (before : Reread d n level left tokens)
    (peeked : peekInfix (precedence d) tokens = .ok (some (next, form), tokens))
    (tighter : level < next) (origin : InfixFrom (nestedParsers d n) next left e rest) :
    Reread d n level e rest := by
  rintro c c' rfl alike plain
  cases alike with
  | atom here => exact atom_reread inner tighter origin here (plain _ List.mem_cons_self)
  | nested | not => cases origin
  | @and l r l' r' first second =>
    refine connected_reread rfl tighter origin peeked ?_ fun m tokens same run => ?_
    · exact before l l' origin.1.symm first fun a member => plain a (List.mem_append_left _ member)
    · exact (inner m _ _ _ _ same run).imp_left fun again =>
        again r r' rfl second fun a member => plain a (List.mem_append_right _ member)
  | @or l r l' r' first second =>
    refine connected_reread rfl tighter origin peeked ?_ fun m tokens same run => ?_
    · exact before l l' origin.1.symm first fun a member => plain a (List.mem_append_left _ member)
    · exact (inner m _ _ _ _ same run).imp_left fun again =>
        again r r' rfl second fun a member => plain a (List.mem_append_right _ member)

/-- What one level parses is read again if what it parses one level deeper is: the operators are
taken one by one, and what was read up to each of them is read again. -/
theorem RereadBelow.reread {e : Expr} (inner : RereadBelow d n)
    (run : parseExprAbove (nestedParsers d n) level tokens = .ok (e, rest)) :
    Reread d n level e rest ∧ Loose d level rest := by
  have all := parseExprAbove_from (I := Reread d n level)
    (fun e rest origin => operand_reread inner origin)
    (fun left tokens next form e rest before peeked tighter origin =>
      operator_reread inner before (by rwa [dialect_nestedParsers] at peeked) tighter origin) run
  rwa [dialect_nestedParsers] at all

/-- A condition of the same form is read where a condition was parsed. -/
theorem parsed_reread {e : Expr}
    (run : parseExprAbove (nestedParsers d n) level tokens = .ok (e, rest)) :
    Reread d n level e rest ∧ Loose d level rest := by
  induction n generalizing level tokens e rest with
  | zero =>
    refine RereadBelow.reread ?_ run
    rintro m level tokens e rest ⟨⟩
  | succ n ih =>
    refine RereadBelow.reread ?_ run
    rintro m level tokens e rest ⟨⟩ run
    exact ih run

end Conditions

/-- Requests of one form, whatever they name and hold. -/
inductive Request.Alike {α β : Type} : Request α → Request β → Prop where
  | insert {rowWord : Bool} {names names' : List String} {rows : List (List α)}
      {rows' : List (List β)} : (rows' = [] → rows = []) →
        Alike (.insert rowWord names rows) (.insert rowWord names' rows')
  | all {items items' : List Item} : Alike (.select items none) (.select items' none)
  | filtered {items items' : List Item} {c : Condition (Atom α)} {c' : Condition (Atom β)} :
      Condition.Related Atom.Alike c c' →
        Alike (.select items (some c)) (.select items' (some c'))

structure Item.IsPlain (d : Dialect) (item : Item) : Prop where
  column : (Ident.bare item.column).isColumn d = true
  label : ∀ label ∈ item.label, (Ident.bare label).isPlain d = true

/-- Requests of something, all of it reading as it is printed. -/
inductive Request.IsPlain {ν : Type} (d : Dialect) : Request (Entry ν) → Prop where
  | insert {rowWord : Bool} {names : List String} {rows : List (List (Entry ν))} : names ≠ [] →
      (∀ name ∈ names, (Ident.bare name).isColumn d = true) →
      (∀ row ∈ rows, row ≠ [] ∧ ∀ e ∈ row, e.IsPlain d) → IsPlain d (.insert rowWord names rows)
  | select {items : List Item} {condition : Option (Condition (Atom (Entry ν)))} : items ≠ [] →
      (∀ item ∈ items, item.IsPlain d) → (∀ c ∈ condition, ∀ a ∈ c.atoms, a.IsPlain d) →
        IsPlain d (.select items condition)

section Requests

variable {d : Dialect} {n : Nat} {table sql : String}

theorem entry_alone {e : Entry} (plain : e.IsPlain d) : StandsAlone d n e.toExpr :=
  ⟨0, 1, (entry_reads n plain).readsAs .., Nat.one_pos⟩

theorem item_reads {item : Item} (plain : item.IsPlain d) :
    ItemReads d (n + 1) item.toSelectItem := by
  have idents : (Ident.bare item.column).isPlain d = true := by
    have column := plain.column
    simp only [Ident.isColumn, Bool.and_eq_true] at column
    exact column.1.1
  refine column_item_reads rfl plain.column (by simpa using idents) (Nat.zero_le _) ?_
  intro ident member
  obtain ⟨label, labelled, rfl⟩ := Option.map_eq_some_iff.mp member
  exact plain.label label labelled

theorem ReadsThere.alone {level : Nat} {e : Expr} {rest : List Lexeme}
    (reads : ReadsThere d n level e rest) : StandsAlone d n e := by
  obtain ⟨floor, ceiling, reads, tighter, -⟩ := reads
  exact ⟨floor, ceiling, reads.expr, Nat.zero_lt_of_lt tighter⟩

/-- Where the text of a request was parsed, a plain request of the same form reads as it is
printed. -/
theorem request_reread {r r' : Request Entry}
    (parsed : Statement.parse d sql = .ok (r.toStatement table)) (alike : r.Alike r')
    (name : isTableName d [.bare table] = true) (plain : r'.IsPlain d) :
    Statement.parse d (r'.toStatement table).render = .ok (r'.toStatement table) := by
  have origin := parse_from parsed
  cases alike with
  | @insert rowWord names names' rows rows' empty =>
    cases plain with
    | insert listed columns each =>
      have nonempty : rows.map (·.map Entry.toExpr) ≠ ([] : List (List Expr)) := origin _ rfl
      refine insert_reads rowWord name (by simpa using listed) ?_ ?_ ?_
      · exact List.forall_mem_map.mpr columns
      · rw [Ne, List.map_eq_nil_iff]
        exact fun none => nonempty (by rw [empty none, List.map_nil])
      · refine List.forall_mem_map.mpr fun row member => ⟨by simpa using (each row member).1, ?_⟩
        exact List.forall_mem_map.mpr fun e inside => entry_alone ((each row member).2 e inside)
  | @all items items' =>
    cases plain with
    | select projected each _ =>
      refine select_reads (by simpa using projected) ?_ (List.cons_ne_nil _ _) ?_ ?_
      · exact List.forall_mem_map.mpr fun item member => item_reads (each item member)
      · exact List.forall_mem_singleton.mpr (table_reads name)
      · rintro e ⟨⟩
  | @filtered items items' c c' related =>
    cases plain with
    | select projected each atoms =>
      obtain ⟨tokens, rest, run⟩ := origin _ rfl
      obtain ⟨m, depth, run⟩ := expr_nested run
      obtain rfl := Nat.succ.inj depth
      have reads := (parsed_reread run).1 c c' rfl related (atoms c' rfl)
      refine select_reads (by simpa using projected) ?_ (List.cons_ne_nil _ _) ?_ ?_
      · exact List.forall_mem_map.mpr fun item member => item_reads (each item member)
      · exact List.forall_mem_singleton.mpr (table_reads name)
      · rintro e ⟨⟩
        exact reads.alone

end Requests

end SealedColumns.Store

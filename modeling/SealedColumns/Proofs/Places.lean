import SealedColumns.Proofs.Commands
import SealedColumns.Proofs.Marks
import SealedColumns.Proofs.Outcome

/-!
The places of placeholders in the text. A mapping list binds the placeholders of a text in the
order in which they stand there, while sealing numbers them in visit order. Where the two orders
agree, before and after, each placeholder keeps its value; where they do not, values are exchanged.
-/
namespace SealedColumns

open Sql

namespace Sql

/-- A name that no placeholder of a text has. -/
def placeName (place : Nat) : String := String.ofList (List.replicate (place + 1) '#')

def placeOf? (name : String) : Option Nat :=
  match name.toList with
  | '#' :: rest => some rest.length
  | _ => none

/-- Names the anonymous placeholders among the tokens by their places. -/
def markPlaces : Nat → List Lexeme → List Lexeme
  | _, [] => []
  | place, ⟨.placeholder "?", spaced⟩ :: rest =>
    ⟨.placeholder (placeName place), spaced⟩ :: markPlaces (place + 1) rest
  | place, lexeme :: rest => lexeme :: markPlaces place rest

def placing : Visitor Empty Nat Unit where
  value x _ :=
    match x with
    | .placeholder (.named name) =>
      match placeOf? name with
      | some place => (.placeholder (.numbered place), ())
      | none => (.placeholder (.named name), ())
    | x => (x.remark Empty.elim, ())
  table _ _ := ()

/-- The statement that a text reads as, in which each anonymous placeholder has its place in the
text as ordinal. -/
def placed? (d : Dialect) (sql : String) : Option (Statement Nat) := do
  let tokens ← tokenize? d sql
  match parseStatementsUpTo (nestedParsers d depthLimit) (tokens.length + 1) true
      (markPlaces 0 tokens) with
  | .ok ([t], _) => some (t.walk placing ()).1
  | _ => none

/-- The text reads as the statement, visit order numbers the placeholders by their places in the
text, and the canonical text has them in the same order. -/
structure InTextOrder (d : Dialect) (sql : String) (t : Statement) : Prop where
  parsed : Statement.parse d sql = .ok t
  placed : placed? d sql = some t.number.1
  printed : t.number.1.marks = t.number.1.origins

/-! The canonical text of an INSERT of rows of values has its placeholders in visit order. -/

section Rows

/-- Named from place `k` on, the first list of tokens is the second, and what follows is named from
place `k'` on. -/
def Marks (k : Nat) (ls ls' : List Lexeme) (k' : Nat) : Prop :=
  ∀ rest, markPlaces k (ls ++ rest) = ls' ++ markPlaces k' rest

theorem Marks.append {k m n : Nat} {xs xs' ys ys' : List Lexeme} (first : Marks k xs xs' m)
    (second : Marks m ys ys' n) : Marks k (xs ++ ys) (xs' ++ ys') n := by
  intro rest
  rw [List.append_assoc, first, second, List.append_assoc]

theorem Marks.other {token : Token} (other : token ≠ .placeholder "?") (k : Nat) (spaced : Bool) :
    Marks k [⟨token, spaced⟩] [⟨token, spaced⟩] k := by
  intro rest
  rw [List.singleton_append, markPlaces]
  · rfl
  · rintro _ ⟨⟩
    exact other rfl

theorem Marks.refl {ls : List Lexeme} (other : ∀ lexeme ∈ ls, lexeme.token ≠ .placeholder "?")
    (k : Nat) : Marks k ls ls k := by
  induction ls with
  | nil => exact fun _ => rfl
  | cons lexeme ls ih =>
    rw [List.forall_mem_cons] at other
    exact (Marks.other other.1 k lexeme.spaced).append (ih other.2)

/-- The same for the items of a list. -/
inductive MarksAll : Nat → List (Bool → List Lexeme) → List (Bool → List Lexeme) → Nat → Prop where
  | nil {k : Nat} : MarksAll k [] [] k
  | cons {k m n : Nat} {l l' : Bool → List Lexeme} {ls ls' : List (Bool → List Lexeme)} :
      (∀ spaced, Marks k (l spaced) (l' spaced) m) → MarksAll m ls ls' n →
        MarksAll k (l :: ls) (l' :: ls') n

theorem MarksAll.more {k n : Nat} {ls ls' : List (Bool → List Lexeme)}
    (all : MarksAll k ls ls' n) :
    Marks k (ls.flatMap fun l => mark "," :: l true) (ls'.flatMap fun l => mark "," :: l true)
      n := by
  induction all with
  | nil => exact fun _ => rfl
  | cons first _ ih =>
    exact ((Marks.other (by decide) _ false).append (first true)).append ih

theorem MarksAll.commaLexemes {k n : Nat} {ls ls' : List (Bool → List Lexeme)}
    (all : MarksAll k ls ls' n) (spaced : Bool) :
    Marks k (commaLexemes ls spaced) (commaLexemes ls' spaced) n := by
  cases all with
  | nil => exact fun _ => rfl
  | cons first others =>
    rw [commaLexemes_cons, commaLexemes_cons]
    exact (first spaced).append others.more

def valueItems (values : List Value) : List (Bool → List Lexeme) :=
  values.map fun v spaced => [⟨v.token, spaced⟩]

/-- The value with the name of its place, if it is an anonymous placeholder. -/
def Value.placed (place : Nat) : Value → Value
  | .placeholder .anonymous => .placeholder (.named (placeName place))
  | v => v

theorem placeName_ne (place : Nat) : placeName place ≠ "?" := by
  intro same
  have head := congrArg (fun text => text.toList.head?) same
  rw [placeName, String.toList_ofList] at head
  exact absurd (Option.some.inj head) (by decide)

theorem placeOf?_placeName (place : Nat) : placeOf? (placeName place) = some place := by
  rw [placeOf?, placeName, String.toList_ofList]
  exact congrArg some List.length_replicate

theorem Value.placed_spec {d : Dialect} {v : Value} (plain : v.isPlain d = true) (k : Nat) :
    (v.placed k).isRead = true ∧ (placing.value (v.placed k) ()).1 = (numbering.value v k).1 ∧
      ∀ spaced, Marks k [⟨v.token, spaced⟩] [⟨(v.placed k).token, spaced⟩]
        (numbering.value v k).2 := by
  have read := Value.isRead_of_isPlain plain
  cases v with
  | placeholder mark =>
    cases mark with
    | anonymous =>
      refine ⟨by simpa [Value.placed, Value.isRead] using placeName_ne k, ?_, fun _ _ => rfl⟩
      simp only [Value.placed, placing, placeOf?_placeName]
      rfl
    | numbered ordinal => cases ordinal
    | named text => cases plain
  | boolean value =>
    refine ⟨rfl, rfl, fun spaced => Marks.other ?_ k spaced⟩
    simp [Value.token]
  | _ => exact ⟨read, rfl, fun spaced => Marks.other (by simp [Value.token]) k spaced⟩

theorem marked_values {d : Dialect} {values : List Value} (plain : ∀ v ∈ values, v.isPlain d = true)
    (k : Nat) : ∃ values' : List Value, values'.length = values.length ∧
      (∀ v ∈ values', v.isRead = true) ∧
      (walkExprs placing (values'.map .value) ()).1 =
        (walkExprs numbering (values.map .value) k).1 ∧
      MarksAll k (valueItems values) (valueItems values')
        (walkExprs numbering (values.map .value) k).2 := by
  induction values generalizing k with
  | nil => exact ⟨[], rfl, by simp, rfl, .nil⟩
  | cons v values ih =>
    rw [List.forall_mem_cons] at plain
    obtain ⟨read, numbered, marks⟩ := Value.placed_spec plain.1 k
    obtain ⟨values', length, reads, walked, all⟩ := ih plain.2 (numbering.value v k).2
    refine ⟨v.placed k :: values', congrArg Nat.succ length,
      List.forall_mem_cons.mpr ⟨read, reads⟩, ?_, .cons marks all⟩
    exact congr (congrArg (List.cons ∘ Expr.value) numbered) walked

theorem Marks.row {k n : Nat} {items items' : List (Bool → List Lexeme)}
    (all : MarksAll k items items' n) (rowWord spaced : Bool) :
    Marks k (rowLexemes rowWord items spaced) (rowLexemes rowWord items' spaced) n := by
  have close : Marks n [mark ")"] [mark ")"] n := Marks.other (by decide) n false
  have group := (all.commaLexemes false).append close
  cases rowWord with
  | false => exact (Marks.other (by decide) k spaced).append group
  | true =>
    exact (Marks.other (by decide) k spaced).append ((Marks.other (by decide) k false).append group)

def rowExprs (rows : List (List Value)) : List (List Expr) := rows.map (List.map .value)

def rowItems (rowWord : Bool) (rows : List (List Value)) : List (Bool → List Lexeme) :=
  (rows.map valueItems).map (rowLexemes rowWord)

theorem marked_rows {d : Dialect} {rows : List (List Value)} (rowWord : Bool)
    (plain : ∀ row ∈ rows, row ≠ [] ∧ ∀ v ∈ row, v.isPlain d = true) (k : Nat) :
    ∃ rows' : List (List Value), rows'.length = rows.length ∧
      (∀ row ∈ rows', row ≠ [] ∧ ∀ v ∈ row, v.isRead = true) ∧
      (walkRows placing (rowExprs rows') ()).1 = (walkRows numbering (rowExprs rows) k).1 ∧
      MarksAll k (rowItems rowWord rows) (rowItems rowWord rows')
        (walkRows numbering (rowExprs rows) k).2 := by
  induction rows generalizing k with
  | nil => exact ⟨[], rfl, by simp, rfl, .nil⟩
  | cons row rows ih =>
    rw [List.forall_mem_cons] at plain
    obtain ⟨row', width, read, numbered, marks⟩ := marked_values plain.1.2 k
    obtain ⟨rows', length, reads, walked, all⟩ :=
      ih plain.2 (walkExprs numbering (row.map .value) k).2
    refine ⟨row' :: rows', congrArg Nat.succ length, List.forall_mem_cons.mpr ⟨⟨?_, read⟩, reads⟩,
      ?_, .cons (fun spaced => Marks.row marks rowWord spaced) all⟩
    · rw [← List.length_pos_iff, width, List.length_pos_iff]
      exact plain.1.1
    · exact congr (congrArg List.cons numbered) walked

theorem rowTaken_values {d : Dialect} {n : Nat} {row : List Value} (nonempty : row ≠ [])
    (read : ∀ v ∈ row, v.isRead = true) :
    RowTaken (nestedParsers d (n + 1)) (valueItems row) (row.map .value) := by
  constructor
  · obtain ⟨v, others, rfl⟩ := List.exists_cons_of_ne_nil nonempty
    exact ⟨_, _, v.token, [], rfl, rfl, (Value.token_opens (read v List.mem_cons_self)).1⟩
  · rw [valueItems, List.forall₂_map_left_iff, List.forall₂_map_right_iff, List.forall₂_same]
    exact fun v member => (builds_operand (value_takes n (read v member)) 0 1).takes Nat.one_pos

/-- What is read from the tokens of an INSERT of rows. -/
theorem insertValues_taken {d : Dialect} {table : Name} {first : Ident} (others : List Ident)
    {rows : List (List Value)} (rowWord : Bool) (name : isTableName d table = true)
    (opener : first.formWord ∉ notOpeners) (nonempty : rows ≠ [])
    (read : ∀ row ∈ rows, row ≠ [] ∧ ∀ v ∈ row, v.isRead = true) :
    (nestedParsers d depthLimit).statement (insertLexemes table (first :: others)
      (valuesLexemes (commaLexemes (rowItems rowWord rows) true) true) false) =
        .ok (.insert (insertRows table (first :: others) rowWord (rowExprs rows)), []) := by
  refine insert_taken false name opener (by simpa [rowExprs] using nonempty) ?_
  rw [rowExprs, List.forall₂_map_left_iff, List.forall₂_map_right_iff, List.forall₂_same]
  exact fun row member => rowTaken_values (read row member).1 (read row member).2

theorem Marks.insert {k n : Nat} {rows rows' : List Lexeme} (marks : Marks k rows rows' n)
    (table : Name) (columns : List Ident) (spaced : Bool) :
    Marks k (insertLexemes table columns (valuesLexemes rows true) spaced)
      (insertLexemes table columns (valuesLexemes rows' true) spaced) n := by
  have name : ∀ lexeme ∈ nameLexemes table true, lexeme.token ≠ .placeholder "?" := by
    cases table with
    | nil => simp [nameLexemes]
    | cons ident parts =>
      simp only [nameLexemes, partLexemes, List.forall_mem_cons, List.forall_mem_flatMap]
      simp [mark]
  have list : MarksAll k (columns.map identLexemes) (columns.map identLexemes) k := by
    induction columns with
    | nil => exact .nil
    | cons ident columns ih => exact .cons (Marks.other (by simp) k) ih
  have opening : Marks k [⟨.symbol "(", true⟩] [⟨.symbol "(", true⟩] k :=
    Marks.other (by decide) k true
  have close : Marks k [mark ")"] [mark ")"] k := Marks.other (by decide) k false
  have columns := (opening.append (list.commaLexemes false)).append close
  have word (text : String) (spaced : Bool) : Marks k [⟨.word text none, spaced⟩]
      [⟨.word text none, spaced⟩] k := Marks.other (by simp) k spaced
  exact (word "INSERT" spaced).append ((word "INTO" true).append ((Marks.refl name k).append
    (columns.append ((word "VALUES" true).append marks))))

theorem marksOf_segment {ν : Type} (v : Value ν) : marksOf [v.segment] = v.origin?.toList := by
  cases v with
  | placeholder mark => cases mark <;> rfl
  | _ => rfl

theorem rowMarks_values (values : List Value) (k : Nat) :
    rowMarks (walkExprs numbering (values.map .value) k).1 =
      originsOf (visitsAll (walkExprs numbering (values.map .value) k).1) := by
  induction values generalizing k with
  | nil => rfl
  | cons v values ih =>
    have rest := ih (numbering.value v k).2
    simp only [List.map_cons, walkExprs, Expr.walk, visitsAll, Expr.visits, List.singleton_append,
      originsOf_value, rowMarks, List.flatMap_cons, Expr.segments, marksOf_segment] at rest ⊢
    rw [rest]

theorem rowMarks_rows (rows : List (List Value)) (k : Nat) :
    (walkRows numbering (rowExprs rows) k).1.flatMap rowMarks =
      originsOf (visitsRows (walkRows numbering (rowExprs rows) k).1) := by
  induction rows generalizing k with
  | nil => rfl
  | cons row rows ih =>
    have rest := ih (walkExprs numbering (row.map .value) k).2
    simp only [rowExprs, List.map_cons, walkRows, visitsRows, originsOf_append, List.flatMap_cons,
      rowMarks_values] at rest ⊢
    rw [rest]

/-- An INSERT of rows that are walked already. -/
def insertWalked (table : Name) (columns : List Ident) (rowWord : Bool)
    (rows : List (List (Expr Nat))) : Statement Nat :=
  .insert ⟨insertInto, table, none, columns, some ⟨false, [], .values rowWord rows, []⟩, [], none,
    .none, [], none, []⟩

theorem insertWalked_marks (table : Name) (columns : List Ident) (rowWord : Bool)
    (rows : List (List (Expr Nat))) :
    (insertWalked table columns rowWord rows).marks = rows.flatMap rowMarks := by
  have clauses : rowMarks ([] : List (Expr Nat)) = [] := rfl
  simp [insertWalked, Statement.marks, Statement.segments, Insert.segments, segmentsQuery?,
    marksOf_query, SetExpr.segments, flatMap_segmentsRows, segmentsCtes, segmentsAll,
    segmentsAssignments, filterSegments, clauses]

theorem insertWalked_origins (table : Name) (columns : List Ident) (rowWord : Bool)
    (rows : List (List (Expr Nat))) :
    (insertWalked table columns rowWord rows).origins = originsOf (visitsRows rows) := by
  simp [insertWalked, Statement.origins, Statement.visits, Insert.visits, visitsQuery?,
    Query.visits, SetExpr.visits, visitsCtes, visitsAll, visitsAssignments, visitsOption]

/-- Whatever values are inserted, their placeholders stand in visit order. -/
theorem insertValues_inTextOrder {d : Dialect} {table : Name} {columns : List Ident}
    {rows : List (List Value)} (rowWord : Bool) (name : isTableName d table = true)
    (listed : columns ≠ []) (plain : ∀ ident ∈ columns, ident.isColumn d = true)
    (nonempty : rows ≠ []) (each : ∀ row ∈ rows, row ≠ [] ∧ ∀ v ∈ row, v.isPlain d = true) :
    InTextOrder d (Statement.render (.insert (insertRows table columns rowWord (rowExprs rows))))
      (.insert (insertRows table columns rowWord (rowExprs rows))) := by
  have alone : ∀ row ∈ rowExprs rows, row ≠ [] ∧ ∀ e ∈ row, StandsAlone d 47 e := by
    refine List.forall_mem_map.mpr fun row member => ⟨by simpa using (each row member).1, ?_⟩
    refine List.forall_mem_map.mpr fun v inside => ⟨0, 1, ?_, Nat.one_pos⟩
    exact (value_reads 47 ((each row member).2 v inside)).readsAs false 0 1
  have lexed : Spells d (commaJoin (renderRows (rowText rowWord) (rowExprs rows)))
      (commaLexemes (rowItems rowWord rows)) := by
    refine spells_rows rowWord (by simpa [rowExprs] using nonempty) ?_
    rw [rowExprs, List.forall₂_map_left_iff, List.forall₂_map_right_iff, List.forall₂_same]
    refine fun row member => ⟨by simpa using (each row member).1, ?_⟩
    rw [List.map_map, valueItems, List.forall₂_map_left_iff, List.forall₂_map_right_iff,
      List.forall₂_same]
    exact fun v inside => spells_value ((each row member).2 v inside)
  have spells := spells_insert rowWord name listed
    (fun ident member => Ident.isPlain_of_isColumn (plain ident member)) lexed
  obtain ⟨rows', length, read, walked, marks⟩ := marked_rows rowWord each 0
  obtain ⟨first, others, rfl⟩ := List.exists_cons_of_ne_nil listed
  refine ⟨insert_reads rowWord name listed plain (by simpa [rowExprs] using nonempty) alone, ?_, ?_⟩
  · have opener := Ident.opener_of_isColumn (plain first List.mem_cons_self)
    have nonempty' : rows' ≠ [] := by
      rw [← List.length_pos_iff, length, List.length_pos_iff]
      exact nonempty
    have marked := (marks.commaLexemes true).insert table (first :: others) false []
    rw [List.append_nil, markPlaces, List.append_nil] at marked
    have taken := insertValues_taken others rowWord name opener nonempty' read
    have opens : next? (insertLexemes table (first :: others)
        (valuesLexemes (commaLexemes (rowItems rowWord rows') true) true) false) =
          some (.word "INSERT" none) := rfl
    rw [placed?, tokens_of_spells spells]
    simp only [Option.bind_eq_bind, Option.bind_some, marked,
      parseStatementsUpTo_alone opens (by simp) taken]
    exact congrArg (some ∘ insertWalked table (first :: others) rowWord) walked
  · have order := rowMarks_rows rows 0
    exact (insertWalked_marks ..).trans (order.trans (insertWalked_origins ..).symm)

end Rows

end Sql

namespace Interceptor

theorem sealText_some {i : Interceptor} {handler : Handler} {statement : MappedStatement}
    {bound : BoundStatement} {supply : Supply} {sealed : Sealed}
    (done : (i.sealText handler statement bound supply).1 = .ok (some sealed)) :
    ∃ t, Statement.parse i.dialect bound.sql = .ok t ∧
      (sealBound (.resolve t i.catalog) handler i.options statement.resultMaps bound t supply).1 =
        .ok sealed := by
  unfold sealText at done
  cases parsed : Statement.parse i.dialect bound.sql with
  | error e => simp [parsed] at done
  | ok t =>
    simp only [parsed] at done
    split at done
    · cases done
    · refine ⟨t, rfl, ?_⟩
      cases result : (sealBound (.resolve t i.catalog) handler i.options statement.resultMaps
        bound t supply).1 with
      | error e => simp [result, Except.map] at done
      | ok s => simpa [result, Except.map] using done

/-- What a sealed statement was made of. -/
theorem prepare_isSealed {i : Interceptor} {statement : MappedStatement} {bound : BoundStatement}
    {supply : Supply} (isSealed : (i.prepare statement bound supply).1.isSealed = true) :
    ∃ handler t sealed, i.handler = some handler ∧ Statement.parse i.dialect bound.sql = .ok t ∧
      (sealBound (.resolve t i.catalog) handler i.options statement.resultMaps bound t supply).1 =
        .ok sealed ∧
      (i.prepare statement bound supply).1.bound = sealed.bound := by
  unfold prepare at isSealed ⊢
  cases known : i.handler with
  | none => simp [known, pass] at isSealed
  | some handler =>
    simp only [known] at isSealed ⊢
    split at isSealed
    · cases isSealed
    · rename_i matched
      rw [if_neg matched]
      split at isSealed
      · cases isSealed
      · rename_i sealable
        rw [if_neg sealable]
        cases done : (i.sealText handler statement bound supply).1 with
        | error e => simp [done, pass] at isSealed
        | ok sealed? =>
          cases sealed? with
          | none => simp [done, pass] at isSealed
          | some sealed =>
            obtain ⟨t, parsed, succeeded⟩ := sealText_some done
            exact ⟨handler, t, sealed, rfl, parsed, succeeded, by simp⟩

end Interceptor

namespace Sealing

/-- The value of the `n`-th placeholder of the input, by the mapping at the place where it is
printed. -/
def printedValue (tree : Statement Nat) (final : BoundStatement) (n : Nat) : Option Json :=
  final.mappings[tree.marks.idxOf (some n)]?.map (Parameters.ofBound final).valueOf

/-- What becomes of the placeholders of a text whose places are the ordinals in `u`: the emitted
tree is `u` but for what is sealed, its text has the mappings of the parts one after the other, and
the placeholders that are neither written nor compared keep their values. -/
structure KeepsPlaces (g : Sealing) (bound final : BoundStatement) (u tree : Statement Nat) :
    Prop where
  shape : g.TreeSealed u tree
  text : textOf tree.segments = final.sql
  bindings : ∃ part : Nat → List Slot,
    tree.marks.zip final.mappings = (List.range bound.mappings.length).flatMap
      (fun n => (part n).map fun slot => (slot.origin, slot.mapping)) ∧
    tree.marks.length = final.mappings.length ∧
    ∀ n m, bound.mappings[n]? = some m →
      Expanded g bound final u n m ((part n).map Slot.mapping) ∧
      ∀ slot ∈ part n, ∀ j, slot.origin = some j → j = n
  kept : ∀ n value, n ∉ g.written u → n ∉ g.compared u → inputValue bound n = some value →
    printedValue tree final n = some value

variable {g : Sealing}

theorem Emits.keepsPlaces {bound : BoundStatement} {supply : Supply} {t : Statement}
    {tree : Statement Nat} {sealed : Sealed} (emits : Emits g bound supply t tree sealed)
    (fresh : supply.Fresh bound) (inputs : g.inputs = bound.mappings) (one : t.number.1.OneSource)
    (printed : t.number.1.marks = t.number.1.origins) :
    KeepsPlaces g bound sealed.bound t.number.1 tree := by
  have order : tree.marks = tree.origins := by
    obtain ⟨d, pass, -⟩ := emits.pass
    rw [emits.treeSealed.marks one (by rw [printed]; exact t.once_number),
      (sealTree_trace t.once_number pass).1, printed]
  refine ⟨emits.treeSealed, by rw [emits.text, tree.textOf_segments], ?_, ?_⟩
  · obtain ⟨d, part, ledger, aligned, rfl⟩ := emits.ledger fresh inputs
    refine ⟨part, ?_, ?_, fun n m known => ⟨?_, fun slot member j bears => ?_⟩⟩
    · rw [order, aligned, Parameters.origins, Parameters.toBound, Parameters.mappings,
        List.zip_map', ledger.slots, List.map_flatMap]
    · rw [order, aligned]
      simp only [Parameters.origins, Parameters.toBound, Parameters.mappings, List.length_map]
    · exact (ledger.parts n m known).expanded fresh t.once_number _
    · exact (ledger.parts n m known).origin member bears
  · intro n value unwritten uncompared input
    rw [printedValue, order]
    exact emits.outputValue_kept fresh inputs unwritten uncompared input

end Sealing

/-- A sealed text whose placeholders stand in visit order, as they are read and as they are printed,
keeps them at their places, each with its value. -/
theorem placeholders_keep_places (i : Interceptor) (statement : MappedStatement)
    (bound : BoundStatement) (t : Statement) (supply : Supply) (fresh : supply.Fresh bound)
    (ordered : InTextOrder i.dialect bound.sql t)
    (isSealed : (i.prepare statement bound supply).1.isSealed = true) :
    ∃ handler u tree, i.handler = some handler ∧ placed? i.dialect bound.sql = some u ∧
      Sealing.KeepsPlaces
        ⟨.resolve t i.catalog, handler, i.options, statement.resultMaps, bound.mappings⟩ bound
        (i.prepare statement bound supply).1.bound u tree := by
  obtain ⟨handler, t', sealed, known, parsed, succeeded, same⟩ :=
    Interceptor.prepare_isSealed isSealed
  obtain rfl : t' = t := Except.ok.inj (parsed.symm.trans ordered.parsed)
  obtain ⟨tree, emits⟩ := exists_emits succeeded
  refine ⟨handler, _, tree, known, ordered.placed, ?_⟩
  rw [same]
  exact emits.keepsPlaces fresh rfl (oneSource_of_parse parsed).walk ordered.printed

namespace Sample

theorem added_ordered : InTextOrder .generic bound.sql statement :=
  @insertValues_inTextOrder .generic [.bare "users"] [.bare "id", .bare "email"]
    [[.placeholder .anonymous, .placeholder .anonymous]] false (by decide) (by simp) (by decide)
    (by simp) (by decide)

end Sample

open Sample in
theorem placeholders_keep_places_insert :
    supply.Fresh bound ∧ InTextOrder .generic bound.sql statement ∧
    (interceptor.prepare mapped bound supply).1.isSealed = true ∧
    ∃ handler u tree, interceptor.handler = some handler ∧
      placed? .generic bound.sql = some u ∧
      Sealing.KeepsPlaces
        ⟨.resolve statement config.catalog, handler, ⟨true, false⟩, [], bound.mappings⟩ bound
        (interceptor.prepare mapped bound supply).1.bound u tree := by
  have isSealed : (interceptor.prepare mapped bound supply).1.isSealed = true := by decide +kernel
  exact ⟨fresh, added_ordered, isSealed, placeholders_keep_places interceptor mapped bound statement
    supply fresh added_ordered isSealed⟩

namespace Sample

/-- What the placeholders of a text are bound to, in visit order, each by the mapping at its
place. -/
def placedTexts (bound : BoundStatement) : Option (List (Option (Option String))) :=
  (placed? .generic bound.sql).map fun u =>
    u.origins.map fun origin => (origin.bind (Sealing.inputValue bound)).bind Json.plain?

def paged : BoundStatement :=
  ⟨"SELECT email FROM users OFFSET ? LIMIT ?", [.ofProperty "skip", .ofProperty "count"],
    .object [("skip", .string "5"), ("count", .string "10")], []⟩

def joined : BoundStatement :=
  ⟨"UPDATE users FROM (SELECT ? AS n) AS t SET email = ?", [.ofProperty "n", .ofProperty "email"],
    .object [("n", .string "five"), ("email", .string "a@x")], []⟩

/-- The values of a text before and behind sealing. -/
structure Exchanges (bound : BoundStatement) (sql : String) (before behind : List String) : Prop
    where
  isSealed : (interceptor.prepare mapped bound supply).1.isSealed = true
  text : (interceptor.prepare mapped bound supply).1.bound.sql = sql
  before : placedTexts bound = some (before.map fun text => some (some text))
  behind : placedTexts (interceptor.prepare mapped bound supply).1.bound =
    some (behind.map fun text => some (some text))

end Sample

open Sample in
/-- The limit is visited before the offset, and what is assigned before the sources. Where the text
has them the other way round, the limit takes the offset's value; and another value is encrypted
for the column, whose own value goes to the index as it is. -/
theorem limit_and_offset_exchanged :
    Exchanges paged "SELECT email_enc AS email FROM users LIMIT ? OFFSET ?"
      ["10", "5"] ["5", "10"] ∧
    Exchanges joined "UPDATE users FROM (SELECT ? AS n) AS t SET email_enc = ?, email_idx = ?"
      ["a@x", "five"] ["~five", "a@x", "#five"] := by
  constructor <;> constructor <;> decide +kernel

end SealedColumns

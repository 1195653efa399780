import SealedColumns.Proofs.Commands
import SealedColumns.Proofs.LegibleQueries
import SealedColumns.Proofs.Target
import SealedColumns.Proofs.Vault.Coding

/-!
The text that sealing emits denotes the tree that it is printed from, where what stands in the
statement reads back and what is written into it is plain: sealing keeps a statement one that reads
back. Configured names that need their quotes, and texts whose quotes stand side by side or behind a
backslash, are not plain, and there the text denotes something else or nothing.
-/
namespace SealedColumns

namespace Sql

open Text

section Alphabets

variable {d : Dialect}

theorem isPlainLiteral_of_clear {text : String}
    (clear : ∀ c ∈ text.toList, c ≠ '\'' ∧ c ≠ '\\') : isPlainLiteral d text = true :=
  StringRules.keeps_of_clear clear _

theorem isPlainLiteral_encodeHex (bytes : Bytes) : isPlainLiteral d (encodeHex bytes) = true := by
  refine isPlainLiteral_of_clear fun c member => ?_
  rw [encodeHex, String.toList_ofList] at member
  obtain ⟨byte, -, digit⟩ := List.mem_flatMap.mp member
  have plain : ∀ n < 16, hexDigit n ≠ '\'' ∧ hexDigit n ≠ '\\' := by decide
  have bounded := byte.toNat_lt
  simp only [hexByte, List.mem_cons, List.not_mem_nil, or_false] at digit
  obtain rfl | rfl := digit
  · exact plain _ (by omega)
  · exact plain _ (by omega)

theorem encodeBase64Chars_clear {bytes : Bytes} {c : Char} (member : c ∈ encodeBase64Chars bytes) :
    c ≠ '\'' ∧ c ≠ '\\' := by
  have symbols : ∀ n < 64, base64Symbol n ≠ '\'' ∧ base64Symbol n ≠ '\\' := by decide
  obtain rfl | ⟨n, small, rfl⟩ := encodeBase64Chars_bytes_mem bytes c member
  · decide
  · exact symbols n small

theorem isPlainLiteral_encodeBase64 (bytes : Bytes) :
    isPlainLiteral d (encodeBase64 bytes) = true := by
  refine isPlainLiteral_of_clear fun c member => ?_
  rw [encodeBase64, String.toList_ofList] at member
  exact encodeBase64Chars_clear member

end Alphabets

def Assignment.restored (a : Assignment Nat) : Assignment := (a.walk restoring ()).1

section Walks

theorem walkExprs_restoring (es : List (Expr Nat)) :
    (walkExprs restoring es ()).1 = es.map Expr.restored := by
  induction es with
  | nil => rfl
  | cons e es ih => exact congrArg (e.restored :: ·) ih

theorem walkRows_restoring (rows : List (List (Expr Nat))) :
    (walkRows restoring rows ()).1 = rows.map (List.map Expr.restored) := by
  induction rows with
  | nil => rfl
  | cons row rows ih =>
    rw [List.map_cons, ← ih, ← walkExprs_restoring]
    rfl

theorem walkAssignments_restoring (as : List (Assignment Nat)) :
    (walkAssignments restoring as ()).1 = as.map Assignment.restored := by
  induction as with
  | nil => rfl
  | cons a as ih => exact congrArg (a.restored :: ·) ih

end Walks

/-- An assignment to a column, under its name. -/
inductive LegibleAssignment (d : Dialect) (n : Nat) : Assignment Nat → Prop where
  | column {name : Name} {e : Expr Nat} : name ≠ [] → (∀ ident ∈ name, ident.isPlain d = true) →
      LegibleAlone d n e → LegibleAssignment d n ⟨.column name, e⟩

/-- Statements that read back: an INSERT of rows or of a query, an UPDATE, a DELETE, and queries.
The sources of an UPDATE, of a DELETE and of a SELECT without a query in them are only asked to read
back themselves. -/
inductive LegibleStatement (d : Dialect) : Statement Nat → Prop where
  | insert {table : Name} {columns : List Ident} {rowWord : Bool}
      {rows : List (List (Expr Nat))} :
      isTableName d table = true → columns ≠ [] → (∀ ident ∈ columns, ident.isColumn d = true) →
      rows ≠ [] → (∀ row ∈ rows, row ≠ [] ∧ ∀ e ∈ row, LegibleAlone d 47 e) →
        LegibleStatement d (.insert ⟨insertInto, table, none, columns,
          some ⟨false, [], .values rowWord rows, []⟩, [], none, .none, [], none, []⟩)
  | insertQuery {table : Name} {columns : List Ident} {q : Query Nat} :
      isTableName d table = true → columns ≠ [] → (∀ ident ∈ columns, ident.isColumn d = true) →
      LegibleQuery d 48 q →
        LegibleStatement d (.insert ⟨insertInto, table, none, columns, some q, [], none, .none, [],
          none, []⟩)
  | update {target : FromItem Nat} {as : List (Assignment Nat)} {filter : Option (Expr Nat)} :
      SourceReads d 49 endsSource target.restored → as ≠ [] → (∀ a ∈ as, LegibleAssignment d 48 a) →
      (∀ e ∈ filter, LegibleAlone d 48 e) →
        LegibleStatement d (.update ⟨none, target, false, as, [], filter, []⟩)
  | delete {sources : List (FromItem Nat)} {filter : Option (Expr Nat)} :
      sources ≠ [] → (∀ item ∈ sources, SourceReads d 49 endsSource item.restored) →
      (∀ e ∈ filter, LegibleAlone d 48 e) →
        LegibleStatement d (.delete ⟨[], true, sources, [], filter, []⟩)
  | select {items : List (SelectItem Nat)} {sources : List (FromItem Nat)}
      {filter : Option (Expr Nat)} :
      items ≠ [] → (∀ item ∈ items, LegibleItem d 48 item) →
      sources ≠ [] →
      (∀ item ∈ sources, item.isFlat = true ∧ SourceReads d 48 endsSource item.restored) →
      (∀ e ∈ filter, LegibleAlone d 47 e) →
        LegibleStatement d (.query ⟨false, [],
          .select ⟨.standard, [], items, sources, filter, []⟩, []⟩)
  | query {q : Query Nat} : LegibleQuery d 48 q → LegibleStatement d (.query q)

section Reads

variable {d : Dialect} {n : Nat}

theorem LegibleAssignment.reads {a : Assignment Nat} (legible : LegibleAssignment d n a) :
    ReadsBack d a.restored.render (parseAssignment (nestedParsers d (n + 1))) (Ends d 0)
      a.restored := by
  cases legible with
  | column nonempty plain alone => exact assignment_reads nonempty plain alone.reads

theorem LegibleStatement.reads {t : Statement Nat} (legible : LegibleStatement d t) :
    Statement.parse d t.restore.render = .ok t.restore := by
  cases legible with
  | @insert table columns rowWord rows name listed plain nonempty each =>
    have restored : Statement.restore (.insert ⟨insertInto, table, none, columns,
        some ⟨false, [], .values rowWord rows, []⟩, [], none, .none, [], none, []⟩) =
        .insert ⟨insertInto, table, none, columns,
          some ⟨false, [], .values rowWord (rows.map (List.map Expr.restored)), []⟩, [], none,
          .none, [], none, []⟩ := by
      rw [← walkRows_restoring]
      rfl
    rw [restored]
    refine insert_reads rowWord name listed plain (by simpa using nonempty) ?_
    refine List.forall_mem_map.mpr fun row member => ⟨by simpa using (each row member).1, ?_⟩
    exact List.forall_mem_map.mpr fun e inside => ((each row member).2 e inside).reads
  | insertQuery name listed plain query => exact insert_query_reads name listed plain query.reads
  | @update target as filter source nonempty each filters =>
    have restored : Statement.restore (.update ⟨none, target, false, as, [], filter, []⟩) =
        .update ⟨none, target.restored, false, as.map Assignment.restored, [],
          filter.map Expr.restored, []⟩ := by
      rw [← walkAssignments_restoring, ← walkOption_restoring]
      rfl
    rw [restored]
    refine update_reads source (by simpa using nonempty) ?_ (filter_reads filters)
    exact List.forall_mem_map.mpr fun a member => (each a member).reads
  | @delete sources filter nonempty each filters =>
    have restored : Statement.restore (.delete ⟨[], true, sources, [], filter, []⟩) =
        .delete ⟨[], true, sources.map FromItem.restored, [], filter.map Expr.restored, []⟩ := by
      rw [← walkSources_restoring, ← walkOption_restoring]
      rfl
    rw [restored]
    refine delete_reads (by simpa using nonempty) ?_ (filter_reads filters)
    exact List.forall_mem_map.mpr each
  | @select items sources filter projected eachItem nonempty each filters =>
    have restored : Statement.restore (.query ⟨false, [],
        .select ⟨.standard, [], items, sources, filter, []⟩, []⟩) =
        .query ⟨false, [], .select (selectAll (items.map SelectItem.restored)
          (sources.map FromItem.restored) (filter.map Expr.restored)), []⟩ := by
      rw [← select_restored]
      rfl
    rw [restored]
    refine select_reads (by simpa using projected) ?_ (by simpa using nonempty) ?_
      (filter_reads filters)
    · exact List.forall_mem_map.mpr fun item member => (eachItem item member).reads
    · exact List.forall_mem_map.mpr fun item member => (each item member).2
  | query legible => exact query_statement_reads legible.reads

end Reads

section Renamed

variable {d : Dialect} {n : Nat}

theorem renameLast_plain {name : Name} {text : String} (bare : (Ident.bare text).isPlain d = true)
    (plain : ∀ ident ∈ name, ident.isPlain d = true) :
    ∀ ident ∈ renameLast text name, ident.isPlain d = true := by
  induction name using renameLast.induct with
  | case1 => exact plain
  | case2 ident =>
    rw [List.forall_mem_singleton] at plain
    exact List.forall_mem_singleton.mpr (Ident.isPlain_rename plain bare)
  | case3 ident rest other ih =>
    rw [renameLast]
    · exact List.forall_mem_cons.mpr ⟨(List.forall_mem_cons.mp plain).1,
        ih (List.forall_mem_cons.mp plain).2⟩
    · exact other

theorem renameLast_ne_nil {name : Name} {text : String} (nonempty : name ≠ []) :
    renameLast text name ≠ [] := by
  cases name using renameLast.induct <;> simp_all [renameLast]

theorem LegibleAssignment.renamed {a a' : Assignment Nat} {text : String}
    (legible : LegibleAssignment d n a) (bare : (Ident.bare text).isColumn d = true)
    (target : a'.target = a.target.rename text) (alone : LegibleAlone d n a'.value) :
    LegibleAssignment d n a' := by
  obtain ⟨target', value⟩ := a'
  cases legible with
  | column nonempty plain _ =>
    simp only [Ident.isColumn, Bool.and_eq_true] at bare
    cases target
    exact .column (renameLast_ne_nil nonempty) (renameLast_plain bare.1.1 plain) alone

end Renamed

end Sql

open Sql Text

/-- A query that reads back is no list of rows, so sealing leaves the INSERT of it alone. -/
theorem Sql.LegibleQuery.rowsOf?_eq_none {d : Dialect} {n : Nat} {q : Query Nat}
    (legible : LegibleQuery d n q) : Sealing.rowsOf? (some q) = none := by
  cases legible with
  | query _ _ body _ => cases body <;> rfl

/-- What holds of the items and of the pairs that they give way to holds of all that is left. -/
theorem Spliced.all {α β : Type} {keep : Bool} {pair : β → α → α → α → Prop} {P : α → Prop}
    {items : List (α × Option β)} {out : List α} (spliced : Spliced keep pair items out)
    (each : ∀ item slot, (item, slot) ∈ items → P item)
    (paired : ∀ item slot target index, (item, some slot) ∈ items → pair slot item target index →
      P target ∧ P index) : ∀ item ∈ out, P item := by
  induction spliced with
  | nil => exact fun _ member => absurd member List.not_mem_nil
  | kept _ ih =>
    rw [List.forall_mem_cons]
    exact ⟨each _ _ List.mem_cons_self, ih (fun i s m => each i s (List.mem_cons_of_mem _ m))
      fun i s t x m => paired i s t x (List.mem_cons_of_mem _ m)⟩
  | @pair _ item _ _ _ _ here _ ih =>
    have rest := ih (fun i s m => each i s (List.mem_cons_of_mem _ m))
      fun i s t x m => paired i s t x (List.mem_cons_of_mem _ m)
    obtain ⟨target, index⟩ := paired _ _ _ _ List.mem_cons_self here
    have front : ∀ x ∈ (if keep then [item] else []), P x := by
      cases keep with
      | true => exact List.forall_mem_singleton.mpr (each _ _ List.mem_cons_self)
      | false => exact fun _ member => absurd member List.not_mem_nil
    simp only [List.forall_mem_append, List.forall_mem_cons]
    exact ⟨front, target, index, rest⟩

theorem Spliced.ne_nil {α β : Type} {keep : Bool} {pair : β → α → α → α → Prop}
    {items : List (α × Option β)} {out : List α} (spliced : Spliced keep pair items out)
    (some : items ≠ []) : out ≠ [] := by
  cases spliced with
  | nil => exact absurd rfl some
  | kept _ => exact List.cons_ne_nil _ _
  | pair _ _ => simp

theorem zip_ne_nil {α β : Type} {as : List α} {bs : List β} (length : as.length = bs.length)
    (nonempty : as ≠ []) : as.zip bs ≠ [] := by
  intro empty
  have zipped := congrArg List.length empty
  rw [List.length_zip, ← length, Nat.min_self] at zipped
  exact nonempty (List.length_eq_zero_iff.mp zipped)

/-- What a vault gives out is plain, if the ids of its keys have no quotes and no backslashes. -/
theorem Vault.writesPlain {v : Vault} {d : Dialect}
    (ids : ∀ id key, v.currentKey = .ok (id, key) → ∀ c ∈ id.toList, c ≠ '\'' ∧ c ≠ '\\') :
    v.handler.WritesPlain d := by
  refine ⟨fun {text cipher supply} encrypted => ?_, ?_⟩
  · simp only [Vault.handler, Vault.encrypt] at encrypted
    split at encrypted
    · cases encrypted
    · rename_i id key known
      cases encrypted
      refine isPlainLiteral_of_clear fun c member => ?_
      simp only [Vault.sealText, String.toList_append, List.mem_append, encodeBase64,
        String.toList_ofList] at member
      obtain (member | member) | member := member
      · exact ids id key known c member
      · obtain rfl : c = Vault.separator := by simpa using member
        decide
      · exact encodeBase64Chars_clear member
  · rintro text _ ⟨⟩
    exact isPlainLiteral_encodeHex _

namespace Sealing

variable {g : Sealing} {d : Dialect} {n : Nat} {scope : List String}

/-- A pair of values is written in the place of one that reads back. -/
theorem ValuePair.alone (writes : g.WritesPlain d) {e target index : Expr Nat}
    (pair : g.ValuePair e target index) (alone : LegibleAlone d n e) :
    LegibleAlone d n target ∧ LegibleAlone d n index := by
  cases pair with
  | placeholder =>
    obtain ⟨_, _, legible, -⟩ := alone
    cases legible with
    | value plain => exact ⟨.value plain, .value plain⟩
    | closed _ other _ => cases other
  | literal _ encrypted indexed =>
    exact ⟨.value (writes.encrypted encrypted), .value (writes.indexed indexed)⟩
  | null => exact ⟨alone, alone⟩

theorem AssignmentsSealed.legible (writes : g.WritesPlain d) {as as' : List (Assignment Nat)}
    (run : g.AssignmentsSealed as as') (nonempty : as ≠ [])
    (each : ∀ a ∈ as, LegibleAssignment d n a) :
    as' ≠ [] ∧ ∀ a ∈ as', LegibleAssignment d n a := by
  cases run with
  | derived _ => exact ⟨nonempty, each⟩
  | spliced _ spliced =>
    rw [← List.map_prod_left_eq_zip] at spliced
    refine ⟨spliced.ne_nil (by simpa using nonempty), spliced.all ?_ ?_⟩
    · rintro a slot member
      obtain ⟨a, inside, ⟨⟩⟩ := List.mem_map.mp member
      exact each a inside
    · rintro a c t i member pair
      obtain ⟨a, inside, same⟩ := List.mem_map.mp member
      obtain ⟨rfl, slot⟩ := Prod.mk.inj same
      obtain ⟨ident, -, stands⟩ := assignmentSlot?_stands slot
      have known := (ActiveColumns.mem_of_get? stands).1
      have legible := each a inside
      have alone : LegibleAlone d n a.value := by
        cases legible with
        | column _ _ alone => exact alone
      obtain ⟨target, index⟩ := pair.value.alone writes alone
      exact ⟨legible.renamed (writes.target c known) pair.target target,
        legible.renamed (writes.index c known) pair.index index⟩

theorem RowSealed.legible (writes : g.WritesPlain d) {slots : List (Option SensitiveColumn)}
    {row row' : List (Expr Nat)} (run : g.RowSealed slots row row')
    (length : row.length = slots.length) (nonempty : row ≠ [])
    (each : ∀ e ∈ row, LegibleAlone d n e) : row' ≠ [] ∧ ∀ e ∈ row', LegibleAlone d n e := by
  refine ⟨Spliced.ne_nil run (zip_ne_nil length nonempty), Spliced.all run ?_ ?_⟩
  · exact fun e slot member => each e (List.of_mem_zip member).1
  · exact fun e slot t i member pair => pair.alone writes (each e (List.of_mem_zip member).1)

theorem rows_legible (writes : g.WritesPlain d) {slots : List (Option SensitiveColumn)}
    {rows rows' : List (List (Expr Nat))} (run : List.Forall₂ (g.RowSealed slots) rows rows')
    (wide : ∀ row ∈ rows, row.length = slots.length)
    (each : ∀ row ∈ rows, row ≠ [] ∧ ∀ e ∈ row, LegibleAlone d n e) :
    ∀ row ∈ rows', row ≠ [] ∧ ∀ e ∈ row, LegibleAlone d n e := by
  induction run with
  | nil => exact each
  | cons head _ ih =>
    rw [List.forall_mem_cons] at wide each ⊢
    exact ⟨RowSealed.legible writes head wide.1 each.1.1 each.1.2, ih wide.2 each.2⟩

theorem expandColumns_legible (writes : g.WritesPlain d) {columns : List Ident}
    (rows : List (List (Expr Nat))) (nonempty : columns ≠ [])
    (each : ∀ ident ∈ columns, ident.isColumn d = true) :
    g.expandColumns columns (g.columnSlots columns rows) ≠ [] ∧
      ∀ ident ∈ g.expandColumns columns (g.columnSlots columns rows),
        ident.isColumn d = true := by
  have spliced := expandColumns_spliced (g := g) columns (g.columnSlots columns rows)
  refine ⟨spliced.ne_nil (zip_ne_nil (length_columnSlots _ _).symm nonempty), spliced.all ?_ ?_⟩
  · exact fun ident slot member => each ident (List.of_mem_zip member).1
  · rintro ident c t i member ⟨⟩
    have known := (ActiveColumns.mem_of_get? (columnSlots_stands member)).1
    have column := each ident (List.of_mem_zip member).1
    exact ⟨Ident.isColumn_rename column (writes.target c known),
      Ident.isColumn_rename column (writes.index c known)⟩

/-- Sealing keeps a statement one that reads back. -/
theorem TreeSealed.legible (writes : g.WritesPlain d) {t t' : Statement Nat}
    (run : g.TreeSealed t t') (legible : LegibleStatement d t) : LegibleStatement d t' := by
  cases legible with
  | @insert table columns rowWord rows name listed plain nonempty each =>
    cases run with
    | insert insert =>
      cases insert with
      | assignments bare _ => exact absurd bare listed
      | kept _ _ => exact .insert name listed plain nonempty each
      | @rows _ rows' _ _ found wide sealed =>
        cases found
        obtain ⟨listed', plain'⟩ := expandColumns_legible writes rows listed plain
        have slots : ∀ row ∈ rows, row.length = (g.columnSlots columns rows).length :=
          fun row member => (wide row member).trans (length_columnSlots _ _).symm
        have nonempty' : rows' ≠ [] := by
          rw [← List.length_pos_iff, ← sealed.length_eq, List.length_pos_iff]
          exact nonempty
        exact .insert name listed' plain' nonempty' (rows_legible writes sealed slots each)
  | insertQuery name listed plain query =>
    cases run with
    | insert insert =>
      cases insert with
      | assignments bare _ => exact absurd bare listed
      | kept _ _ => exact .insertQuery name listed plain query
      | rows _ _ found _ _ =>
        rw [query.rowsOf?_eq_none] at found
        cases found
  | @update target as filter source nonempty each filters =>
    cases run with
    | update assignments filter =>
      obtain ⟨nonempty', each'⟩ := assignments.legible writes nonempty each
      exact .update source nonempty' each' (filter.alone writes filters)
  | @delete sources filter nonempty each filters =>
    cases run with
    | delete filter => exact .delete nonempty each (filter.alone writes filters)
  | @select items sources filter projected eachItem nonempty each filters =>
    cases run with
    | query query =>
      obtain ⟨ctes, body⟩ := query
      cases ctes
      cases body with
      | kept closed => cases closed
      | select projection inner filter =>
        obtain ⟨projected', eachItem'⟩ := projection.legible writes projected eachItem
        obtain rfl := inner.eq_of_flat fun item member => (each item member).1
        exact .select projected' eachItem' nonempty each (filter.alone writes filters)
  | query legible =>
    cases run with
    | query query => exact .query (query.legible writes legible)

end Sealing

section Emitted

variable {active : ActiveColumns} {options : SealOptions} {resultMaps : List ResultMap}
  {bound : BoundStatement} {t : Statement} {supply : Supply} {d : Dialect} {sealed : Sealed}

/-- The emitted text is read as the sealed tree, whatever handler wrote plain texts into it. -/
theorem Sealing.WritesPlain.denotes {handler : Handler}
    (writes : Sealing.WritesPlain ⟨active, handler, options, resultMaps, bound.mappings⟩ d)
    (succeeded : (sealBound active handler options resultMaps bound t supply).1 = .ok sealed)
    (legible : LegibleStatement d t.number.1) :
    ∃ tree, Sealing.Emits ⟨active, handler, options, resultMaps, bound.mappings⟩ bound supply t
        tree sealed ∧
      Sealing.TreeSealed ⟨active, handler, options, resultMaps, bound.mappings⟩ t.number.1 tree ∧
      Statement.parse d sealed.bound.sql = .ok tree.restore := by
  obtain ⟨tree, emits⟩ := exists_emits succeeded
  refine ⟨tree, emits, emits.treeSealed, ?_⟩
  rw [emits.text]
  exact (emits.treeSealed.legible writes legible).reads

/-- With a vault only the configured names, the ids of the keys and the parts of the statement have
to be plain: ciphertexts are in base64, and indexes in hexadecimal digits. -/
theorem vault_text_denotes_tree {v : Vault}
    (succeeded : (sealBound active v.handler options resultMaps bound t supply).1 = .ok sealed)
    (target : ∀ c ∈ active.columns, (Ident.bare c.target).isColumn d = true)
    (index : ∀ c ∈ active.columns, (Ident.bare c.index).isColumn d = true)
    (ids : ∀ id key, v.currentKey = .ok (id, key) → ∀ c ∈ id.toList, c ≠ '\'' ∧ c ≠ '\\')
    (legible : LegibleStatement d t.number.1) :
    ∃ tree, Sealing.Emits ⟨active, v.handler, options, resultMaps, bound.mappings⟩ bound supply t
        tree sealed ∧
      Statement.parse d sealed.bound.sql = .ok tree.restore := by
  have writes : Sealing.WritesPlain ⟨active, v.handler, options, resultMaps, bound.mappings⟩ d :=
    ⟨Vault.writesPlain ids, target, index⟩
  obtain ⟨tree, emits, -, reads⟩ := writes.denotes succeeded legible
  exact ⟨tree, emits, reads⟩

end Emitted

/-- Where the configured names and what the handler gives out are plain, and the parts of the
statement read back, the emitted text is read as the sealed tree and nothing else. -/
theorem emitted_text_denotes_tree (active : ActiveColumns) (handler : Handler)
    (options : SealOptions) (resultMaps : List ResultMap) (bound : BoundStatement) (t : Statement)
    (supply : Supply) (d : Dialect) (sealed : Sealed)
    (succeeded : (sealBound active handler options resultMaps bound t supply).1 = .ok sealed)
    (writes : Sealing.WritesPlain ⟨active, handler, options, resultMaps, bound.mappings⟩ d)
    (legible : LegibleStatement d t.number.1) :
    ∃ tree, Sealing.Emits ⟨active, handler, options, resultMaps, bound.mappings⟩ bound supply t
        tree sealed ∧
      Sealing.TreeSealed ⟨active, handler, options, resultMaps, bound.mappings⟩ t.number.1 tree ∧
      Statement.parse d sealed.bound.sql = .ok tree.restore :=
  writes.denotes succeeded legible

namespace Sample

/-- A handler that gives out letters and digits only. -/
def spelling : Handler where
  encrypt plain supply := (.ok (encodeHex (encodeUtf8 plain)), supply)
  decrypt cipher := .ok cipher
  index plain := .ok (encodeHex (encodeUtf8 plain))

/-- Puts `b` in the place of `a`. -/
def replacing : Statement :=
  .update ⟨none, ⟨.table [.bare "users"] false [] none, []⟩, false,
    [⟨.column [.bare "email"], .value (.string "b")⟩], [],
    some (.binary (.column [] (.bare "email")) .equal (.value (.string "a"))), []⟩

def replaced : Sealed :=
  ⟨⟨"UPDATE users SET email_enc = '62', email_idx = '62' WHERE email_idx = '61'", [], .null, []⟩,
    []⟩

theorem spelling_plain (options : SealOptions) (inputs : List ParameterMapping) :
    Sealing.WritesPlain ⟨active, spelling, options, [], inputs⟩ .generic := by
  refine ⟨⟨fun {text cipher supply} encrypted => ?_, ?_⟩, List.forall_mem_singleton.mpr (by decide),
    List.forall_mem_singleton.mpr (by decide)⟩
  · cases encrypted
    exact isPlainLiteral_encodeHex _
  · rintro text _ ⟨⟩
    exact isPlainLiteral_encodeHex _

end Sample

open Sample in
theorem emitted_text_denotes_tree_update :
    (sealBound active spelling ⟨true, false⟩ [] noInput replacing supply).1 = .ok replaced ∧
    ∃ tree, Sealing.Emits ⟨active, spelling, ⟨true, false⟩, [], []⟩ noInput supply replacing tree
        replaced ∧
      Sealing.TreeSealed ⟨active, spelling, ⟨true, false⟩, [], []⟩ replacing.number.1 tree ∧
      Statement.parse .generic replaced.bound.sql = .ok tree.restore := by
  have succeeded : (sealBound active spelling ⟨true, false⟩ [] noInput replacing supply).1 =
      .ok replaced := by
    with_unfolding_all rfl
  refine ⟨succeeded, emitted_text_denotes_tree active spelling ⟨true, false⟩ [] noInput replacing
    supply .generic replaced succeeded (spelling_plain _ _) ?_⟩
  refine .update (table_reads (by decide)) (by simp) (List.forall_mem_singleton.mpr ?_) ?_
  · exact .column (by simp) (by decide) (.value (by decide))
  · rintro _ ⟨⟩
    have column : Legible .generic 48 (.column [] (.bare "email")) 100 100 :=
      .column rfl (by decide) (by decide) (by decide)
    have value : Legible .generic 47 (.value (.string "a")) 100 100 := .value (by decide)
    exact ⟨_, _, .binary (by decide) column value (by decide) (by decide), by decide⟩

namespace Sample

/-- The sample configuration with quoted names for the columns that hold the sealed values. -/
def quotedConfig : Config :=
  { config with columns := [⟨"users", "email", "\"email enc\"", "\"email idx\""⟩] }

def quotedInterceptor : Interceptor := { interceptor with catalog := quotedConfig.catalog }

def emailDeletion : BoundStatement := .ofSql "DELETE FROM users WHERE email = 'x'"

/-- A row whose text has two quotes, one behind the other. -/
def doubledQuote : BoundStatement := .ofSql "INSERT INTO users (email) VALUES ('a''''b')"

/-- A row whose text has a quote behind a backslash. -/
def escapedQuote : BoundStatement := .ofSql "INSERT INTO users (email) VALUES ('a\\''b')"

/-- The texts of an INSERT of one row of literals. -/
def literalsOf (sql : String) : Option (List String) :=
  match Statement.parse .generic sql with
  | .ok (.insert { source := some ⟨_, _, .values _ [row], _⟩, .. }) =>
    row.mapM fun
      | .value (.string text) => some text
      | _ => none
  | _ => none

end Sample

open Sample in
/-- Quoted names of a valid configuration go out without their quotes, and texts of the handler lose
a quote or break off. -/
theorem emitted_text_denotes_another_tree :
    quotedConfig.validate = .ok () ∧
    (quotedInterceptor.prepare mapped emailDeletion supply).1.isSealed = true ∧
    (quotedInterceptor.prepare mapped emailDeletion supply).1.bound.sql =
      "DELETE FROM users WHERE email idx = '~x'" ∧
    (parseStatements? .generic "DELETE FROM users WHERE email idx = '~x'").isNone = true ∧
    literalsOf doubledQuote.sql = some ["a''b"] ∧
    (interceptor.prepare mapped doubledQuote supply).1.bound.sql =
      "INSERT INTO users (email_enc, email_idx) VALUES ('#a''b', '~a''b')" ∧
    literalsOf "INSERT INTO users (email_enc, email_idx) VALUES ('#a''b', '~a''b')" =
      some ["#a'b", "~a'b"] ∧
    literalsOf escapedQuote.sql = some ["a\\'b"] ∧
    (interceptor.prepare mapped escapedQuote supply).1.bound.sql =
      "INSERT INTO users (email_enc, email_idx) VALUES ('#a\\'b', '~a\\'b')" ∧
    (parseStatements? .generic
      "INSERT INTO users (email_enc, email_idx) VALUES ('#a\\'b', '~a\\'b')").isNone = true := by
  refine ⟨?_, ?_, ?_, ?_, ?_, ?_, ?_, ?_, ?_, ?_⟩ <;> decide +kernel

end SealedColumns

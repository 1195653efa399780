import SealedColumns.Proofs.Queries
import SealedColumns.Sql.Text

/-!
Statements read back whole, if their parts do: an INSERT of rows or of a query, an UPDATE,
a DELETE and a SELECT.
-/
namespace SealedColumns.Sql

open SealedColumns.Text Parse

variable {d : Dialect} {n : Nat} {rest : List Lexeme}

section Text

theorem parseStatementsUpTo_alone {tokens : List Lexeme} {t : Statement} {token : Token}
    (opens : next? tokens = some token) (separator : token ≠ .symbol ";")
    (taken : (nestedParsers d depthLimit).statement tokens = .ok (t, [])) (fuel : Nat) :
    parseStatementsUpTo (nestedParsers d depthLimit) (fuel + 1) true tokens =
      .ok ([t], []) := by
  cases tokens with
  | nil => cases opens
  | cons lexeme tokens =>
    obtain rfl := Option.some.inj opens
    have other : next? (lexeme :: tokens) ≠ some (.symbol ";") := by simpa using separator
    have none : skipSemicolons (lexeme :: tokens) = .ok (none, lexeme :: tokens) :=
      bind_of (eat_other other) rfl
    refine bind_of (repeated_none none) (bind_of rfl ?_)
    refine bind_of taken ?_
    cases fuel <;> rfl

theorem tokens_of_spells {sql : String} {ls : Bool → List Lexeme} (spells : Spells d sql ls) :
    tokenize? d sql = some (ls false) := by
  have lexed : Lexer.Lexed d none false (sql.toList ++ []) (ls false ++ []) :=
    spells rfl rfl Lexer.lexed_nil
  rw [List.append_nil, List.append_nil] at lexed
  exact lexed _ (Nat.le_of_eq String.length_toList)

theorem parse_of_spells {sql : String} {ls : Bool → List Lexeme} {t : Statement} {token : Token}
    (spells : Spells d sql ls) (opens : next? (ls false) = some token)
    (separator : token ≠ .symbol ";")
    (taken : (nestedParsers d depthLimit).statement (ls false) = .ok (t, [])) :
    Statement.parse d sql = .ok t := by
  have statements : parseStatements? d sql = some [t] := by
    simp only [parseStatements?, tokens_of_spells spells, Option.bind_eq_bind, Option.bind_some,
      parseStatementsUpTo_alone opens separator taken]
  simp only [Statement.parse, parseOne, statements]

end Text

section Clauses

theorem assignment_reads {name : Name} {e : Expr} (nonempty : name ≠ [])
    (plain : ∀ ident ∈ name, ident.isPlain d = true) (alone : StandsAlone d n e) :
    ReadsBack d (Assignment.render ⟨.column name, e⟩) (parseAssignment (nestedParsers d (n + 1)))
      (Ends d 0) ⟨.column name, e⟩ := by
  obtain ⟨floor, ceiling, reads, positive⟩ := alone
  obtain ⟨ls, spells, takes⟩ := reads.readsBack positive
  refine ⟨fun spaced => nameLexemes name spaced ++ ⟨.symbol "=", true⟩ :: ls true, ?_, ?_⟩
  · have text : Assignment.render ⟨.column name, e⟩ =
        name.render ++ " " ++ "=" ++ " " ++ e.render := by
      have sign : " = " = " " ++ "=" ++ " " := rfl
      simp only [Assignment.render, Target.render, sign, String.append_assoc]
    have equal : Spells d "=" fun spaced => [⟨.symbol "=", spaced⟩] := spells_operator (by decide)
    have sign := (spells_name nonempty plain).blank equal
    rw [text]
    simpa using sign.blank spells
  · intro spaced rest ends
    have target : parseTarget
        (nameLexemes name spaced ++ ⟨.symbol "=", true⟩ :: (ls true ++ rest)) =
          .ok (.column name, ⟨.symbol "=", true⟩ :: (ls true ++ rest)) := by
      refine bind_of (isAt_zero "(" _) ?_
      obtain ⟨first, parts, rfl⟩ := List.exists_cons_of_ne_nil nonempty
      exact bind_of (parseName_takes _ nonempty spaced _ (by simp)) rfl
    rw [List.append_assoc]
    refine bind_of target (bind_of (expect_here "=" _) ?_)
    exact bind_of (takes true rest ends) rfl

/-- A filter, or none, at the end of a statement. -/
theorem filter_at_end {filter : Option Expr} (reads : ∀ e ∈ filter, StandsAlone d n e) :
    ∃ tail, Appends d (renderFilter filter) tail ∧ endsSource (next? tail) = true ∧
      Ends d 0 tail ∧ next? tail ≠ some (.symbol ",") ∧
      (∀ keyword ∈ keyword? tail, keyword = "WHERE") ∧
      parseOptional "WHERE" (parseExpr (nestedParsers d (n + 1))) tail = .ok (filter, []) := by
  obtain ⟨tail, appends, opens, takes⟩ := exists_filter_lexing reads
  have taken := takes [] (ends_nil d 0) (by simp [keyword?])
  rw [List.append_nil] at taken
  obtain rfl | ⟨more, rfl⟩ := opens
  · exact ⟨[], appends, rfl, ends_nil d 0, by simp, by rintro keyword ⟨⟩, taken⟩
  · refine ⟨_, appends, rfl, ends_word (by decide) d 0 _ _, by simp, ?_, taken⟩
    rintro keyword ⟨⟩
    rfl

end Clauses

section Statements

theorem renderAssignments_eq_map (as : List Assignment) :
    renderAssignments as = as.map Assignment.render := by
  induction as with
  | nil => rfl
  | cons a as ih => rw [renderAssignments, ih, List.map_cons]

theorem statement_of_keyword {text keyword : String} {spaced : Bool} {t : Statement}
    (word : keywordText text = keyword)
    (body : parseKeywordStatement (nestedParsers d 49) keyword (⟨.word text none, spaced⟩ :: rest) =
      .ok (t, [])) :
    (nestedParsers d depthLimit).statement (⟨.word text none, spaced⟩ :: rest) = .ok (t, []) := by
  refine bind_of (peek_zero _) ?_
  simp only [next?_cons, Token.keyword?, word]
  exact body

theorem update_reads {target : FromItem} {as : List Assignment} {filter : Option Expr}
    (source : SourceReads d 49 endsSource target) (nonempty : as ≠ [])
    (each : ∀ a ∈ as, ReadsBack d a.render (parseAssignment (nestedParsers d 49)) (Ends d 0) a)
    (filters : ∀ e ∈ filter, StandsAlone d 48 e) :
    Statement.parse d (Statement.render (.update ⟨none, target, false, as, [], filter, []⟩)) =
      .ok (.update ⟨none, target, false, as, [], filter, []⟩) := by
  obtain ⟨lt, spellsT, noOr, takesT⟩ := source
  obtain ⟨la, spellsA, takesA⟩ := commaList_readsBack (fun rest => ends_mark (by decide) d 0 rest)
    nonempty each
  have front := (((spells_letters (d := d) "UPDATE" (by decide) (by decide)).blank spellsT).blank
    (spells_letters "SET" (by decide) (by decide))).blank spellsA
  obtain ⟨tail, appends, -, ends, comma, words, taken⟩ := filter_at_end filters
  have spells := appends front
  have text : Statement.render (.update ⟨none, target, false, as, [], filter, []⟩) =
      "UPDATE" ++ " " ++ target.render ++ " " ++ "SET" ++ " " ++
        commaJoin (as.map Assignment.render) ++ renderFilter filter := by
    have set : " SET " = " " ++ "SET" ++ " " := rfl
    simp only [Statement.render, Update.render_mk, renderAssignments_eq_map, set, renderSources,
      listAfter, renderExprs, Sql.spaced, String.append_assoc]
    simp
  rw [text]
  refine parse_of_spells spells rfl (by decide) ?_
  have fromWord : keyword? tail ≠ some "FROM" := fun same => absurd (words _ same) (by decide)
  have update : parseUpdate (nestedParsers d 49)
      (lt true ++ ⟨.word "SET" none, true⟩ :: (la true ++ tail)) =
        .ok (⟨none, target, false, as, [], filter, []⟩, []) := by
    have resolution : parseResolution (lt true ++ ⟨.word "SET" none, true⟩ :: (la true ++ tail)) =
        .ok (none, lt true ++ ⟨.word "SET" none, true⟩ :: (la true ++ tail)) := by
      exact bind_of (isWordAt_other (noOr _ _)) rfl
    refine bind_of resolution (bind_of (takesT true _ rfl) ?_)
    have set : keywordText "SET" = "SET" := rfl
    refine bind_of (eatWord_other (by simp [keyword?, Token.keyword?, set])) (bind_of rfl ?_)
    refine bind_of (expectWord_here set _) ?_
    refine bind_of (takesA true tail ⟨ends, comma⟩) ?_
    refine bind_of (eatWordIf_other _ fromWord) (bind_of rfl ?_)
    exact bind_of taken rfl
  have lexemes (spaced : Bool) :
      ((([⟨.word "UPDATE" none, spaced⟩] ++ lt true) ++ [⟨.word "SET" none, true⟩]) ++ la true) ++
        tail = ⟨.word "UPDATE" none, spaced⟩ ::
          (lt true ++ ⟨.word "SET" none, true⟩ :: (la true ++ tail)) := by
    simp
  rw [lexemes]
  exact statement_of_keyword rfl (bind_of rfl (bind_of update rfl))

theorem delete_reads {sources : List FromItem} {filter : Option Expr} (nonempty : sources ≠ [])
    (each : ∀ item ∈ sources, SourceReads d 49 endsSource item)
    (filters : ∀ e ∈ filter, StandsAlone d 48 e) :
    Statement.parse d (Statement.render (.delete ⟨[], true, sources, [], filter, []⟩)) =
      .ok (.delete ⟨[], true, sources, [], filter, []⟩) := by
  obtain ⟨ls, spellsS, takesS⟩ := sources_read rfl nonempty each
  have front := ((spells_letters (d := d) "DELETE" (by decide) (by decide)).blank
    (spells_letters "FROM" (by decide) (by decide))).blank spellsS
  obtain ⟨tail, appends, stops, -, comma, words, taken⟩ := filter_at_end filters
  have spells := appends front
  have text : Statement.render (.delete ⟨[], true, sources, [], filter, []⟩) =
      "DELETE" ++ " " ++ "FROM" ++ " " ++ commaJoin (sources.map FromItem.render) ++
        renderFilter filter := by
    simp [Statement.render, Delete.render, renderSources_eq_map, listAfter, renderExprs, Sql.spaced]
  rw [text]
  refine parse_of_spells spells rfl (by decide) ?_
  have delete : parseDelete (nestedParsers d 49)
      (⟨.word "FROM" none, true⟩ :: (ls true ++ tail)) =
        .ok (⟨[], true, sources, [], filter, []⟩, []) := by
    have other {keyword : String} (differs : keyword ≠ "WHERE") : keyword? tail ≠ some keyword :=
      fun same => differs (words keyword same)
    have fromWord : keywordText "FROM" = "FROM" := rfl
    refine bind_of (eatWord_here fromWord _) (bind_of rfl ?_)
    refine bind_of (takesS true tail ⟨stops, comma⟩) ?_
    refine bind_of (eatWord_other (other (by decide))) (bind_of rfl ?_)
    exact bind_of taken rfl
  exact statement_of_keyword rfl (bind_of rfl (bind_of delete rfl))

/-- The words of an INSERT that says no more than INTO. -/
def insertInto : InsertVerb := ⟨false, none, none, false, false, true, false⟩

/-- What stands in front of each row of an INSERT. -/
def rowText (rowWord : Bool) : String := if rowWord then "ROW" else ""

def rowLexemes (rowWord : Bool) (items : List (Bool → List Lexeme)) (spaced : Bool) : List Lexeme :=
  if rowWord then
    ⟨.word "ROW" none, spaced⟩ :: ⟨.symbol "(", false⟩ :: (commaLexemes items false ++ [mark ")"])
  else ⟨.symbol "(", spaced⟩ :: (commaLexemes items false ++ [mark ")"])

theorem spells_row {texts : List String} {items : List (Bool → List Lexeme)} (rowWord : Bool)
    (each : List.Forall₂ (Spells d) texts items) (nonempty : texts ≠ []) :
    Spells d (rowText rowWord ++ "(" ++ commaJoin texts ++ ")") (rowLexemes rowWord items) := by
  have inner := spells_commaJoin each nonempty
  cases rowWord with
  | false =>
    have text : rowText false ++ "(" = "(" := rfl
    rw [text]
    exact inner.parenthesized
  | true => exact (spells_letters "ROW" (by decide) (by decide)).parenthesis inner

/-- The first of the items is no end of a list. -/
def OpensList (items : List (Bool → List Lexeme)) : Prop :=
  ∃ l others token more, items = l :: others ∧ l false = ⟨token, false⟩ :: more ∧
    isOpener token = true

/-- The items are read as the expressions of a row, one by one. -/
structure RowTaken (g : Nested) (items : List (Bool → List Lexeme)) (row : List Expr) : Prop where
  opens : OpensList items
  takes : List.Forall₂ (Takes (parseExpr g) (Ends g.dialect 0)) items row

/-- A row of expressions in parentheses, and ROW in front of them or not. -/
theorem RowTaken.row {g : Nested} {items : List (Bool → List Lexeme)} {row : List Expr}
    (taken : RowTaken g items row) (rowWord : Bool) :
    Takes (parseValuesRow g) (fun _ => True) (rowLexemes rowWord items) (rowWord, row) := by
  obtain ⟨⟨l, others, token, more, rfl, split, opener⟩, each⟩ := taken
  have nonempty : row ≠ [] := by
    rintro rfl
    cases each
  have takes := commaList_takes (fun rest => ends_mark (by decide) g.dialect 0 rest) each nonempty
  have group (spaced : Bool) (rest : List Lexeme) : parseRow g
      (⟨.symbol "(", spaced⟩ :: (commaLexemes (l :: others) false ++ mark ")" :: rest)) =
        .ok (row, rest) := by
    have items := takes false (mark ")" :: rest)
      ⟨ends_mark (by decide) g.dialect 0 rest, by simp [mark]⟩
    have close : next? (commaLexemes (l :: others) false ++ mark ")" :: rest) ≠
        some (.symbol ")") := by
      rw [commaLexemes_cons, split]
      exact (isOpener_apart opener).2
    refine bind_of (expect_here "(" _) (bind_of (eatIf_other _ close) ?_)
    exact bind_of items (bind_of (expect_here ")" _) rfl)
  intro spaced rest _
  cases rowWord with
  | false =>
    simp only [rowLexemes, Bool.false_eq_true, if_false, List.cons_append, List.append_assoc,
      List.nil_append]
    exact bind_of (eatWord_other (by simp [keyword?, Token.keyword?]))
      (bind_of (group spaced rest) rfl)
  | true =>
    simp only [rowLexemes, if_true, List.cons_append, List.append_assoc, List.nil_append]
    have here : keywordText "ROW" = "ROW" := rfl
    exact bind_of (eatWord_here here _) (bind_of (group false rest) rfl)

theorem rows_take {g : Nested} (rowWord : Bool) {rowItems : List (List (Bool → List Lexeme))}
    {rows : List (List Expr)} (nonempty : rows ≠ [])
    (each : List.Forall₂ (RowTaken g) rowItems rows) :
    Takes (parseValues g) (fun rest => next? rest ≠ some (.symbol ","))
      (commaLexemes (rowItems.map (rowLexemes rowWord))) (.values rowWord rows) := by
  have list : List.Forall₂ (Takes (parseValuesRow g) fun _ => True)
      (rowItems.map (rowLexemes rowWord)) (rows.map (Prod.mk rowWord)) := by
    rw [List.forall₂_map_left_iff, List.forall₂_map_right_iff]
    exact each.imp fun _ _ taken => taken.row rowWord
  intro spaced rest stop
  have takes := commaList_takes (fun _ => trivial) list (by simpa using nonempty)
  refine bind_of (takes spaced rest ⟨trivial, stop⟩) ?_
  have words : (rows.map (Prod.mk rowWord)).any Prod.fst = rowWord := by
    obtain ⟨row, rows, rfl⟩ := List.exists_cons_of_ne_nil nonempty
    cases rowWord <;> simp
  have all : (rows.map (Prod.mk rowWord)).map Prod.snd = rows := by
    rw [List.map_map]
    exact List.map_id rows
  rw [words, all]
  rfl

theorem renderRows_eq_map (word : String) (rows : List (List Expr)) :
    renderRows word rows =
      rows.map fun row => word ++ "(" ++ commaJoin (row.map Expr.render) ++ ")" := by
  induction rows with
  | nil => rfl
  | cons row rows ih => rw [renderRows, ih, renderExprs_eq_map, List.map_cons]

theorem spells_rows (rowWord : Bool) {rows : List (List Expr)}
    {rowItems : List (List (Bool → List Lexeme))} (nonempty : rows ≠ [])
    (each : List.Forall₂ (fun row items => row ≠ [] ∧
      List.Forall₂ (Spells d) (row.map Expr.render) items) rows rowItems) :
    Spells d (commaJoin (renderRows (rowText rowWord) rows))
      (commaLexemes (rowItems.map (rowLexemes rowWord))) := by
  rw [renderRows_eq_map]
  refine spells_commaJoin ?_ (by simpa using nonempty)
  rw [List.forall₂_map_left_iff, List.forall₂_map_right_iff]
  exact each.imp fun _ _ row => spells_row rowWord row.2 (by simpa using row.1)

theorem exists_row_lexing {row : List Expr} (nonempty : row ≠ [])
    (each : ∀ e ∈ row, StandsAlone d n e) :
    ∃ items, List.Forall₂ (Spells d) (row.map Expr.render) items ∧
      RowTaken (nestedParsers d (n + 1)) items row := by
  obtain ⟨e, row, rfl⟩ := List.exists_cons_of_ne_nil nonempty
  rw [List.forall_mem_cons] at each
  obtain ⟨⟨floor, ceiling, ⟨l, spells, starts, -, builds⟩, positive⟩, others⟩ := each
  obtain ⟨ls, spell, take⟩ := exists_lexings fun e member => (others e member).readsBack
  obtain ⟨token, more, split, opener, -⟩ := starts false
  exact ⟨l :: ls, .cons spells spell, ⟨l, ls, token, more, rfl, split, opener⟩,
    .cons (builds.takes positive) take⟩

theorem rows_read (rowWord : Bool) {rows : List (List Expr)} (nonempty : rows ≠ [])
    (each : ∀ row ∈ rows, row ≠ [] ∧ ∀ e ∈ row, StandsAlone d n e) :
    ∃ rowItems, Spells d (commaJoin (renderRows (rowText rowWord) rows))
        (commaLexemes (rowItems.map (rowLexemes rowWord))) ∧
      List.Forall₂ (RowTaken (nestedParsers d (n + 1))) rowItems rows := by
  have lexings : ∃ rowItems, List.Forall₂ (fun row items => row ≠ [] ∧
      List.Forall₂ (Spells d) (row.map Expr.render) items) rows rowItems ∧
        List.Forall₂ (RowTaken (nestedParsers d (n + 1))) rowItems rows := by
    clear nonempty
    induction rows with
    | nil => exact ⟨[], .nil, .nil⟩
    | cons row rows ih =>
      rw [List.forall_mem_cons] at each
      obtain ⟨items, spells, taken⟩ := exists_row_lexing each.1.1 each.1.2
      obtain ⟨rowItems, spell, take⟩ := ih each.2
      exact ⟨items :: rowItems, .cons ⟨each.1.1, spells⟩ spell, .cons taken take⟩
  obtain ⟨rowItems, spells, taken⟩ := lexings
  exact ⟨rowItems, spells_rows rowWord nonempty spells, taken⟩

/-- No query opens the parenthesis of a list of names. -/
theorem parseInsertColumns_takes {first : Ident} {others : List Ident} {spaced : Bool}
    (opener : first.formWord ∉ notOpeners) (rest : List Lexeme) :
    parseInsertColumns (nestedParsers d (n + 1)) (columnLexemes (first :: others) spaced ++ rest) =
      .ok (first :: others, rest) := by
  have taken := columns_take (List.cons_ne_nil first others) spaced rest trivial
  obtain ⟨more, split⟩ : ∃ more, columnLexemes (first :: others) spaced ++ rest =
      ⟨.symbol "(", spaced⟩ :: ⟨.word first.text first.quote, false⟩ :: more :=
    ⟨_, by rw [columnLexemes, List.map_cons, commaLexemes_cons]; rfl⟩
  rw [split] at taken ⊢
  have subquery : peekSubquery 1 (⟨.symbol "(", spaced⟩ ::
      ⟨.word first.text first.quote, false⟩ :: more) =
        .ok (false, ⟨.symbol "(", spaced⟩ :: ⟨.word first.text first.quote, false⟩ :: more) := by
    have word : (Token.keyword? (.word first.text first.quote)).any ["SELECT", "WITH"].contains =
        false := by
      have among : ∀ keyword ∈ ["SELECT", "WITH"], keyword ∈ notOpeners := by decide
      rw [Option.any_eq_false]
      intro keyword same
      have form := Ident.formWord_eq (s := false) (r := []) keyword same
      have absent : keyword ∉ ["SELECT", "WITH"] := fun member =>
        opener (form ▸ among keyword member)
      simpa using absent
    have here : peekSubquery 1 (⟨.symbol "(", spaced⟩ ::
        ⟨.word first.text first.quote, false⟩ :: more) =
          .ok ((Token.keyword? (.word first.text first.quote)).any ["SELECT", "WITH"].contains,
            _) := rfl
    rw [here, word]
  refine bind_of (isAt_zero "(" _) (bind_of subquery (bind_of rfl ?_))
  rw [if_neg (by simp)]
  exact taken

theorem parseVerb_into {table : Name} (name : isTableName d table = true) (rest : List Lexeme) :
    parseVerb (nestedParsers d (n + 1)) false none
        (⟨.word "INTO" none, true⟩ :: (nameLexemes table true ++ rest)) =
      .ok (insertInto, nameLexemes table true ++ rest) := by
  have into : keywordText "INTO" = "INTO" := rfl
  have word : keyword? (⟨.word "INTO" none, true⟩ :: (nameLexemes table true ++ rest)) =
      some "INTO" := rfl
  have tableWord := keyword_of_name name "TABLE" (by decide) true rest
  have behind : (do
      let overwrite ← eatWord "OVERWRITE"
      let into ← eatWord "INTO"
      return ⟨false, none, none, false, overwrite, into, ← eatWord "TABLE"⟩ : Parse InsertVerb)
        (⟨.word "INTO" none, true⟩ :: (nameLexemes table true ++ rest)) =
      .ok (insertInto, nameLexemes table true ++ rest) := by
    refine bind_of (eatWord_other (by rw [word]; decide)) ?_
    exact bind_of (eatWord_here into _) (bind_of (eatWord_other tableWord) rfl)
  unfold parseVerb
  cases (nestedParsers d (n + 1)).dialect.hasInsertModifiers with
  | true =>
    refine bind_of (eatOneOf_other (by rw [word]; rintro keyword ⟨⟩; decide)) ?_
    exact bind_of (eatWord_other (by rw [word]; decide)) behind
  | false => exact bind_of rfl (bind_of rfl behind)

/-- Rows are a body. -/
theorem values_operand_takes {g : Nested} {ls : Bool → List Lexeme} {body : SetExpr}
    (takes : Takes (parseValues g) (fun rest => next? rest ≠ some (.symbol ",")) ls body) :
    Takes (parseSetOperand g) (fun rest => endsBody (next? rest) = true)
      (fun spaced => ⟨.word "VALUES" none, spaced⟩ :: ls true) body := by
  intro spaced rest ends
  simp only [endsBody, Bool.and_eq_true, bne_iff_ne] at ends
  have word : keyword? (⟨.word "VALUES" none, spaced⟩ :: (ls true ++ rest)) = some "VALUES" := rfl
  have values : keywordText "VALUES" = "VALUES" := rfl
  refine bind_of (isOneOfAt_other (by rw [List.cons_append, word]; rintro keyword ⟨⟩; decide)) ?_
  refine bind_of (eat_other (by simp)) ?_
  exact bind_of (eatWord_here values _) (takes true rest ends.2)

/-- The INSERT of what a query gives under a list of columns, and no more. -/
def insertQuery (table : Name) (columns : List Ident) (source : Query) : Insert :=
  ⟨insertInto, table, none, columns, some source, [], none, .none, [], none, []⟩

/-- The INSERT of a list of rows under a list of columns, and no more. -/
def insertRows (table : Name) (columns : List Ident) (rowWord : Bool) (rows : List (List Expr)) :
    Insert :=
  ⟨insertInto, table, none, columns, some ⟨false, [], .values rowWord rows, []⟩, [], none, .none,
    [], none, []⟩

theorem render_insertQuery (table : Name) {columns : List Ident} (source : Query)
    (listed : columns ≠ []) :
    Statement.render (.insert (insertQuery table columns source)) =
      "INSERT" ++ " " ++ "INTO" ++ " " ++ table.render ++ " " ++
        ("(" ++ commaJoin (columns.map Ident.render) ++ ")") ++ " " ++ source.render := by
  obtain ⟨first, others, rfl⟩ := List.exists_cons_of_ne_nil listed
  simp [Statement.render, Insert.render, InsertVerb.render, insertQuery, insertInto, optionWord,
    flagWord, columnList, renderQuery?, renderLabel, ConflictRule.render, renderAssignments,
    renderFilter, renderExprs, Sql.spaced, commaJoin]
  have opening : " (" = " " ++ "(" := rfl
  simp only [opening, String.append_assoc]

/-- An INSERT of which the lexemes behind the columns are given. -/
def insertLexemes (table : Name) (columns : List Ident) (source : List Lexeme) (spaced : Bool) :
    List Lexeme :=
  ⟨.word "INSERT" none, spaced⟩ :: ⟨.word "INTO" none, true⟩ :: (nameLexemes table true ++
    (columnLexemes columns true ++ source))

/-- Rows, behind the word for them. -/
def valuesLexemes (rows : List Lexeme) (spaced : Bool) : List Lexeme :=
  ⟨.word "VALUES" none, spaced⟩ :: rows

theorem insert_query_taken {table : Name} {first : Ident} {others : List Ident} {q : Query}
    {tokens : List Lexeme} (spaced : Bool) (name : isTableName d table = true)
    (opener : first.formWord ∉ notOpeners) (set : keyword? tokens ≠ some "SET")
    (query : (nestedParsers d 49).query tokens = .ok (q, [])) :
    (nestedParsers d depthLimit).statement (insertLexemes table (first :: others) tokens spaced) =
      .ok (.insert (insertQuery table (first :: others) q), []) := by
  obtain ⟨head, parts, same, -⟩ := isTableName_cons name
  have insert : parseInsertStatement (nestedParsers d 49) (⟨.word "INTO" none, true⟩ ::
      (nameLexemes table true ++ (columnLexemes (first :: others) true ++ tokens))) =
      .ok (insertQuery table (first :: others) q, []) := by
    refine bind_of (bind_of (isWordAt_zero "OR" _) rfl) ?_
    refine bind_of (parseVerb_into name _) ?_
    refine bind_of (parseName_takes _ (same ▸ List.cons_ne_nil _ _) true _ ?_) ?_
    · simp [columnLexemes]
    refine bind_of (eatWordIf_other _ (by simp [columnLexemes])) (bind_of rfl ?_)
    refine bind_of (eatWords_other (by simp [columnLexemes])) ?_
    refine bind_of (parseInsertColumns_takes opener _) ?_
    refine bind_of (eatWordIf_other _ set) (bind_of query ?_)
    cases d <;> rfl
  exact statement_of_keyword rfl (bind_of rfl (bind_of insert rfl))

/-- Rows are a query of their own. -/
theorem insert_taken {table : Name} {first : Ident} {others : List Ident} {rowWord : Bool}
    {rows : List (List Expr)} {rowItems : List (List (Bool → List Lexeme))} (spaced : Bool)
    (name : isTableName d table = true) (opener : first.formWord ∉ notOpeners)
    (nonempty : rows ≠ []) (each : List.Forall₂ (RowTaken (nestedParsers d 48)) rowItems rows) :
    (nestedParsers d depthLimit).statement (insertLexemes table (first :: others)
      (valuesLexemes (commaLexemes (rowItems.map (rowLexemes rowWord)) true) true) spaced) =
        .ok (.insert (insertRows table (first :: others) rowWord rows), []) := by
  let lr := commaLexemes (rowItems.map (rowLexemes rowWord)) true
  have word : keyword? (valuesLexemes lr true) = some "VALUES" := rfl
  have builds := body_operand (values_operand_takes (rows_take rowWord nonempty each)) 0 1
  have query : (nestedParsers d 49).query (valuesLexemes lr true) =
      .ok (⟨false, [], .values rowWord rows, []⟩, []) := by
    have other : ∀ keyword ∈ keyword? (valuesLexemes lr true ++ []),
        keyword ∉ ["WITH", "INSERT", "UPDATE", "DELETE"] := by
      rw [List.append_nil, word]
      rintro keyword ⟨⟩
      decide
    have taken := builds.query Nat.one_pos other rfl
    rwa [List.append_nil] at taken
  exact insert_query_taken spaced name opener (by rw [word]; decide) query

theorem spells_insertQuery {table : Name} {columns : List Ident} {q : Query}
    {lq : Bool → List Lexeme} (name : isTableName d table = true) (listed : columns ≠ [])
    (plain : ∀ ident ∈ columns, ident.isPlain d = true) (spells : Spells d q.render lq) :
    Spells d (Statement.render (.insert (insertQuery table columns q)))
      (insertLexemes table columns (lq true)) := by
  obtain ⟨head, parts, same, tables, -⟩ := isTableName_cons name
  rw [render_insertQuery table q listed]
  have all := ((((spells_letters (d := d) "INSERT" (by decide) (by decide)).blank
    (spells_letters "INTO" (by decide) (by decide))).blank
    (spells_name (same ▸ List.cons_ne_nil _ _) tables)).blank (spells_columns listed plain)).blank
    spells
  simp only [List.cons_append, List.append_assoc, List.nil_append] at all
  exact all

theorem spells_insert {table : Name} {columns : List Ident} (rowWord : Bool)
    {rows : List (List Expr)} {lr : Bool → List Lexeme} (name : isTableName d table = true)
    (listed : columns ≠ []) (plain : ∀ ident ∈ columns, ident.isPlain d = true)
    (spells : Spells d (commaJoin (renderRows (rowText rowWord) rows)) lr) :
    Spells d (Statement.render (.insert (insertRows table columns rowWord rows)))
      (insertLexemes table columns (valuesLexemes (lr true) true)) := by
  have text : Query.render ⟨false, [], .values rowWord rows, []⟩ =
      "VALUES" ++ " " ++ commaJoin (renderRows (rowText rowWord) rows) := by
    have values : "VALUES " = "VALUES" ++ " " := rfl
    simp [Query.render, SetExpr.render, renderExprs, Sql.spaced, rowText, values]
  have values : Spells d (Query.render ⟨false, [], .values rowWord rows, []⟩)
      (valuesLexemes (lr true)) := by
    rw [text]
    exact (spells_letters "VALUES" (by decide) (by decide)).blank spells
  exact spells_insertQuery name listed plain values

theorem Ident.isPlain_of_isColumn {ident : Ident} (column : ident.isColumn d = true) :
    ident.isPlain d = true := by
  simp only [Ident.isColumn, Bool.and_eq_true] at column
  exact column.1.1

theorem Ident.opener_of_isColumn {ident : Ident} (column : ident.isColumn d = true) :
    ident.formWord ∉ notOpeners := by
  simp only [Ident.isColumn, Bool.and_eq_true, Bool.not_eq_true', List.contains_eq_mem,
    decide_eq_false_iff_not, List.mem_append, not_or] at column
  exact column.1.2.2

theorem insert_reads {table : Name} {columns : List Ident} (rowWord : Bool)
    {rows : List (List Expr)} (name : isTableName d table = true) (listed : columns ≠ [])
    (plain : ∀ ident ∈ columns, ident.isColumn d = true) (nonempty : rows ≠ [])
    (each : ∀ row ∈ rows, row ≠ [] ∧ ∀ e ∈ row, StandsAlone d 47 e) :
    Statement.parse d (Statement.render (.insert (insertRows table columns rowWord rows))) =
      .ok (.insert (insertRows table columns rowWord rows)) := by
  obtain ⟨rowItems, spells, taken⟩ := rows_read rowWord nonempty each
  have spells := spells_insert rowWord name listed
    (fun ident member => Ident.isPlain_of_isColumn (plain ident member)) spells
  obtain ⟨first, others, rfl⟩ := List.exists_cons_of_ne_nil listed
  have opener := Ident.opener_of_isColumn (plain first List.mem_cons_self)
  exact parse_of_spells spells rfl (by decide) (insert_taken false name opener nonempty taken)

theorem insert_query_reads {table : Name} {columns : List Ident} {q : Query}
    (name : isTableName d table = true) (listed : columns ≠ [])
    (plain : ∀ ident ∈ columns, ident.isColumn d = true) (reads : QueryReads d 48 q) :
    Statement.parse d (Statement.render (.insert (insertQuery table columns q))) =
      .ok (.insert (insertQuery table columns q)) := by
  obtain ⟨lq, spells, opens, takes⟩ := reads
  have spells := spells_insertQuery name listed
    (fun ident member => Ident.isPlain_of_isColumn (plain ident member)) spells
  obtain ⟨first, others, rfl⟩ := List.exists_cons_of_ne_nil listed
  have opener := Ident.opener_of_isColumn (plain first List.mem_cons_self)
  obtain ⟨more, split, -⟩ := opens true
  have set : keyword? (lq true) ≠ some "SET" := by
    rw [split]
    rcases query_opening_cases q with same | same | same <;> rw [same]
    · exact fun found => absurd (Option.some.inj found) (by decide)
    · exact fun found => absurd (Option.some.inj found) (by decide)
    · simp
  have query := takes true [] rfl
  rw [List.append_nil] at query
  exact parse_of_spells spells rfl (by decide) (insert_query_taken false name opener set query)

/-- A SELECT of which the sources only have to read back at the end of the text. -/
theorem select_reads {items : List SelectItem} {sources : List FromItem} {filter : Option Expr}
    (projected : items ≠ []) (eachItem : ∀ item ∈ items, ItemReads d 48 item)
    (nonempty : sources ≠ []) (each : ∀ item ∈ sources, SourceReads d 48 endsSource item)
    (filters : ∀ e ∈ filter, StandsAlone d 47 e) :
    Statement.parse d
        (Statement.render (.query ⟨false, [], .select (selectAll items sources filter), []⟩)) =
      .ok (.query ⟨false, [], .select (selectAll items sources filter), []⟩) := by
  obtain ⟨ls, spells, opens, takes⟩ :=
    select_operand_reads rfl rfl projected eachItem nonempty each filters
  obtain ⟨more, split, -⟩ := opens false
  have operand : parseSetOperand (nestedParsers d 48) (ls false) =
      .ok (.select (selectAll items sources filter), []) := by
    have taken := takes false [] ⟨rfl, rfl⟩
    rwa [List.append_nil] at taken
  have word : keyword? (ls false) = some "SELECT" := by
    rw [split]
    rfl
  have text : Statement.render (.query ⟨false, [], .select (selectAll items sources filter), []⟩) =
      Select.render (selectAll items sources filter) := by
    simp [Statement.render, Query.render, SetExpr.render, renderExprs, Sql.spaced]
  have query : (nestedParsers d 49).query (ls false) =
      .ok (⟨false, [], .select (selectAll items sources filter), []⟩, []) := by
    have bare : eatWord "WITH" (ls false) = .ok (false, ls false) :=
      eatWord_other (by rw [word]; decide)
    have write : parseWrite (nestedParsers d 48) (ls false) = .ok (none, ls false) :=
      parseWrite_none (by rw [word]; rintro keyword ⟨⟩; decide)
    exact parseQuery_takes (bind_of bare rfl) write (bind_of operand rfl) rfl
  rw [text]
  have starts : next? (ls false) = some (.word "SELECT" none) := by
    rw [split]
    rfl
  refine parse_of_spells spells starts (by decide) ?_
  rw [split] at query ⊢
  exact statement_of_keyword rfl (bind_of query rfl)

/-- Any query that reads back, as a statement. -/
theorem query_statement_reads {q : Query} (reads : QueryReads d 48 q) :
    Statement.parse d (Statement.render (.query q)) = .ok (.query q) := by
  obtain ⟨ls, spells, opens, takes⟩ := reads
  obtain ⟨more, split, -⟩ := opens false
  have query := takes false [] rfl
  rw [List.append_nil] at query
  have semicolon : q.opening ≠ .symbol ";" := by
    rcases query_opening_cases q with same | same | same <;> rw [same] <;> decide
  have starts : next? (ls false) = some q.opening := by
    rw [split]
    rfl
  refine parse_of_spells spells starts semicolon ?_
  rw [split] at query ⊢
  rcases query_opening_cases q with same | same | same <;> rw [same] at query ⊢
  · exact statement_of_keyword rfl (bind_of query rfl)
  · exact statement_of_keyword rfl (bind_of query rfl)
  · exact bind_of rfl (bind_of query rfl)

end Statements

end SealedColumns.Sql

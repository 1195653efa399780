import SealedColumns.Proofs.Sources

/-!
Queries read back whole, if their parts do: selects over their sources, set operations as tightly
as they bind, and the common table expressions in front. So do the expressions that a query stands
in.
-/
namespace SealedColumns.Sql

open SealedColumns.Text Parse

variable {d : Dialect} {n : Nat} {rest : List Lexeme}

section Filters

/-- A filter stands behind WHERE. -/
def OpensFilter (tail : List Lexeme) : Prop :=
  tail = [] ∨ ∃ more, tail = ⟨.word "WHERE" none, true⟩ :: more

/-- A filter, or none, reads back in front of what does not go on with it. -/
theorem exists_filter_lexing {filter : Option Expr} (reads : ∀ e ∈ filter, StandsAlone d n e) :
    ∃ tail, Appends d (renderFilter filter) tail ∧ OpensFilter tail ∧
      ∀ rest, Ends d 0 rest → keyword? rest ≠ some "WHERE" →
        parseOptional "WHERE" (parseExpr (nestedParsers d (n + 1))) (tail ++ rest) =
          .ok (filter, rest) := by
  cases filter with
  | none => exact ⟨[], .nil, .inl rfl, fun rest _ other => bind_of (eatWord_other other) rfl⟩
  | some e =>
    obtain ⟨le, spells, takes⟩ := (reads e rfl).readsBack
    have word := (spells_letters (d := d) "WHERE" (by decide) (by decide)).appends
    refine ⟨⟨.word "WHERE" none, true⟩ :: le true, ?_, .inr ⟨_, rfl⟩, fun rest ends _ => ?_⟩
    · have text : renderFilter (some e) = " " ++ "WHERE" ++ (" " ++ e.render) := by
        have word : " WHERE " = " " ++ "WHERE" ++ " " := rfl
        simp only [renderFilter, word, String.append_assoc]
      rw [text]
      exact word.append spells.appends
    · have here : keywordText "WHERE" = "WHERE" := rfl
      exact bind_of (eatWord_here here _) (bind_of (takes true rest ends) rfl)

/-- What follows the filter is next, or the filter is. -/
theorem OpensFilter.next {tail : List Lexeme} (opens : OpensFilter tail) {P : Option Token → Prop}
    (filter : P (some (.word "WHERE" none))) (behind : P (next? rest)) :
    P (next? (tail ++ rest)) := by
  obtain rfl | ⟨more, rfl⟩ := opens
  · exact behind
  · exact filter

end Filters

/-- What follows an item of a projection that is not the last thing in the text. -/
def endsItem (token : Option Token) : Bool :=
  [some (.symbol ","), some (.word "FROM" none)].contains token

/-- An item of a projection reads back, and starts like an operand. -/
def ItemReads (d : Dialect) (n : Nat) (item : SelectItem) : Prop :=
  ∃ ls, Spells d item.render ls ∧
    (∀ spaced rest, ∃ token more, ls spaced ++ rest = ⟨token, spaced⟩ :: more ∧
      isOpener token = true) ∧
    Takes (parseSelectItem (nestedParsers d n)) (fun rest => endsItem (next? rest) = true) ls item

section Items

theorem endsItem_cases (ends : endsItem (next? rest) = true) :
    ∃ token spaced more, rest = ⟨token, spaced⟩ :: more ∧
      (token = .symbol "," ∨ token = .word "FROM" none) := by
  cases rest with
  | nil => cases ends
  | cons lexeme more =>
    exact ⟨lexeme.token, lexeme.spaced, more, rfl, by simpa [endsItem] using ends⟩

theorem ends_of_endsItem (ends : endsItem (next? rest) = true) : Ends d 0 rest := by
  obtain ⟨token, spaced, more, rfl, rfl | rfl⟩ := endsItem_cases ends
  · exact ⟨rfl, none, rfl, by simp⟩
  · exact ends_word (by decide) d 0 spaced more

theorem star_reads : ItemReads d n ⟨.star [], none⟩ := by
  refine ⟨fun spaced => [⟨.symbol "*", spaced⟩], ?_,
    fun spaced rest => ⟨_, rest, rfl, by decide⟩, ?_⟩
  · exact spells_operator (by decide)
  · intro spaced rest ends
    have other {keyword : String} (differs : keyword ≠ "FROM") : keyword? rest ≠ some keyword := by
      obtain ⟨token, spaced, more, rfl, rfl | rfl⟩ := endsItem_cases ends
      · rintro ⟨⟩
      · exact fun same => differs (Option.some.inj same).symm
    have options : parseStarOptions (nestedParsers d n) rest = .ok ("", rest) := by
      refine bind_of (eatWordIf_other _ (other (by decide))) (bind_of rfl ?_)
      exact bind_of (eatWordIf_other _ (other (by decide))) (bind_of rfl rfl)
    refine bind_of (bind_of (attempt_none rfl) (bind_of (eat_here "*" rest) rfl)) ?_
    exact bind_of options rfl

theorem eq_of_toLower {c x : Char} (lower : c.toLower = x) :
    c = x ∨ c.val.toNat + 32 = x.val.toNat := by
  unfold Char.toLower at lower
  split at lower
  · rename_i upper
    have bound : c.val.toNat ≤ 90 := upper.2
    have distance : ('a'.val - 'A'.val).toNat = 32 := rfl
    have sum : (c.val + ('a'.val - 'A'.val)).toNat = c.val.toNat + 32 := by
      rw [UInt32.toNat_add, distance]
      omega
    rw [← lower]
    exact .inr sum.symm
  · exact .inl lower

theorem foldUpper_of_toLower {c x : Char} (member : x ∈ ['f', 'r', 'o', 'm'])
    (lower : c.toLower = x) : foldUpper c = [x.toUpper] := by
  have upper {y : Char} (same : c.val.toNat + 32 = x.val.toNat)
      (value : y.val.toNat + 32 = x.val.toNat) : c = y :=
    Char.ext (UInt32.toNat_inj.mp (Nat.add_right_cancel (same.trans value.symm)))
  simp only [List.mem_cons, List.not_mem_nil, or_false] at member
  rcases eq_of_toLower lower with rfl | same
  · rcases member with rfl | rfl | rfl | rfl <;> rfl
  · rcases member with rfl | rfl | rfl | rfl
    · rw [upper (y := 'F') same rfl]
      rfl
    · rw [upper (y := 'R') same rfl]
      rfl
    · rw [upper (y := 'O') same rfl]
      rfl
    · rw [upper (y := 'M') same rfl]
      rfl

theorem flatMap_foldUpper (cs : List Char)
    (letters : ∀ c ∈ cs, c.toLower ∈ ['f', 'r', 'o', 'm']) :
    cs.flatMap foldUpper = (cs.map Char.toLower).map Char.toUpper := by
  induction cs with
  | nil => rfl
  | cons c cs ih =>
    rw [List.forall_mem_cons] at letters
    rw [List.flatMap_cons, foldUpper_of_toLower letters.1 rfl, ih letters.2]
    rfl

/-- FROM is compared in lower case there, as no other word is. -/
theorem keywordText_from {text : String} (lower : asciiLower text = "from") :
    keywordText text = "FROM" := by
  have chars : text.toList.map Char.toLower = ['f', 'r', 'o', 'm'] := by
    simpa [asciiLower] using congrArg String.toList lower
  have letters : ∀ c ∈ text.toList, c.toLower ∈ ['f', 'r', 'o', 'm'] := fun c member =>
    chars ▸ List.mem_map_of_mem member
  rw [keywordText, flatMap_foldUpper _ letters, chars]
  rfl

theorem isFromWord_column {qualifier : List Ident} {name first : Ident}
    (head : (qualifier ++ [name]).head? = some first) (column : first.isColumn d = true) :
    isFromWord (.column qualifier name) = false := by
  unfold isFromWord
  split
  · rename_i text same
    obtain ⟨rfl, rfl⟩ := Expr.column.inj same
    cases head
    simp only [Ident.isColumn, Bool.and_eq_true, Bool.not_eq_true', List.contains_eq_mem,
      decide_eq_false_iff_not, List.mem_append, not_or] at column
    rw [beq_eq_false_iff_ne]
    intro lower
    have word : Ident.formWord ⟨text, none⟩ = "FROM" := keywordText_from lower
    exact column.1.2.2 (by rw [word]; decide)
  · rfl

/-- A column is no star of a table. -/
theorem parseStarOrExpr_column {qualifier : List Ident} {name first : Ident} {spaced : Bool}
    (head : (qualifier ++ [name]).head? = some first) (column : first.isColumn d = true)
    (deep : qualifier.length ≤ n) (ends : Ends d 0 rest) :
    parseStarOrExpr (nestedParsers d (n + 1)) (nameLexemes (qualifier ++ [name]) spaced ++ rest) =
      .ok (.column qualifier name, rest) := by
  have stop : next? rest ≠ some (.symbol ".") := ne_of_quiet ends.1 (by decide)
  have takes : Takes (parseDotted (nestedParsers d n)) (fun rest => isQuiet (next? rest) = true)
      (nameLexemes (qualifier ++ [name])) (.column qualifier name) := fun _ _ quiet =>
    parseDotted_column head column deep quiet
  have expr := (builds_operand takes 0 1).takes Nat.one_pos spaced rest ends
  obtain ⟨parts, split⟩ := List.head?_eq_some_iff.mp head
  rw [split] at expr ⊢
  have none : attempt (do expect "."; parseIdent) rest = .ok (none, rest) :=
    attempt_none (bind_fails (expect_fails stop))
  -- The star is looked for first, behind the whole name, so the name is read twice.
  have others := repeated_items (fun part => [mark ".", ⟨.word part.text part.quote, false⟩]) none
    parts (fun part _ behind => attempt_some (bind_of (expect_here "." _) rfl))
    (fun _ _ => List.cons_ne_nil _ _)
  refine bind_of (attempt_none ?_) (bind_of (eat_other (by simp [nameLexemes])) expr)
  refine bind_of (a := first) (m := partLexemes parts ++ rest) rfl ?_
  exact bind_of others (bind_fails (expect_fails stop))

def labelLexemes : Option Ident → List Lexeme
  | none => []
  | some label => [⟨.word "AS" none, true⟩, ⟨.word label.text label.quote, true⟩]

theorem parseAlias_label (label : Option Ident) (ends : endsItem (next? rest) = true) :
    parseAlias reservedForColumn (labelLexemes label ++ rest) = .ok (label, rest) := by
  cases label with
  | some label => rfl
  | none => obtain ⟨token, spaced, more, rfl, rfl | rfl⟩ := endsItem_cases ends <;> rfl

theorem ends_label (label : Option Ident) (ends : endsItem (next? rest) = true) :
    Ends d 0 (labelLexemes label ++ rest) := by
  cases label with
  | none => exact ends_of_endsItem ends
  | some label => exact ends_word (by decide) d 0 true _

theorem column_item_reads {qualifier : List Ident} {name first : Ident} {label : Option Ident}
    (head : (qualifier ++ [name]).head? = some first) (column : first.isColumn d = true)
    (plain : ∀ ident ∈ qualifier ++ [name], ident.isPlain d = true) (deep : qualifier.length ≤ n)
    (labelled : ∀ ident ∈ label, ident.isPlain d = true) :
    ItemReads d (n + 1) ⟨.column qualifier name, label⟩ := by
  have spells : Spells d (Name.render (qualifier ++ [name])) (nameLexemes (qualifier ++ [name])) :=
    spells_name (by simp) plain
  refine ⟨fun spaced => nameLexemes (qualifier ++ [name]) spaced ++ labelLexemes label, ?_, ?_, ?_⟩
  · cases label with
    | none => simpa [SelectItem.render, Expr.render, labelLexemes] using spells
    | some label =>
      have named : Spells d (Name.render [label]) (nameLexemes [label]) :=
        spells_name (by simp) (by simpa using labelled)
      have all := (spells.blank (spells_letters "AS" (by decide) (by decide))).blank named
      have word : " AS " = " " ++ "AS" ++ " " := rfl
      simpa [SelectItem.render, Expr.render, labelLexemes, nameLexemes, partLexemes, Name.render,
        word, String.append_assoc] using all
  · obtain ⟨parts, split⟩ := List.head?_eq_some_iff.mp head
    intro spaced rest
    rw [split]
    exact ⟨.word first.text first.quote, partLexemes parts ++ labelLexemes label ++ rest,
      by simp [nameLexemes], isOpener_column column⟩
  · intro spaced rest ends
    rw [List.append_assoc]
    refine bind_of (parseStarOrExpr_column head column deep (ends_label label ends)) ?_
    simp only [isFromWord_column head column, Bool.false_eq_true, if_false]
    cases (nestedParsers d (n + 1)).dialect.hasAliasAssignment <;>
      exact bind_of (parseAlias_label label ends) rfl

theorem renderItems_eq_map (items : List SelectItem) :
    renderItems items = items.map SelectItem.render := by
  induction items with
  | nil => rfl
  | cons item items ih => rw [renderItems, ih, List.map_cons]

/-- A projection starts like an operand too. -/
theorem items_read {items : List SelectItem} (nonempty : items ≠ [])
    (each : ∀ item ∈ items, ItemReads d n item) :
    ∃ ls, Spells d (commaJoin (items.map SelectItem.render)) ls ∧
      (∀ spaced rest, ∃ token more, ls spaced ++ rest = ⟨token, spaced⟩ :: more ∧
        isOpener token = true) ∧
      Takes (commaList (parseSelectItem (nestedParsers d n)))
        (fun rest => endsItem (next? rest) = true ∧ next? rest ≠ some (.symbol ",")) ls items := by
  obtain ⟨item, items, rfl⟩ := List.exists_cons_of_ne_nil nonempty
  rw [List.forall_mem_cons] at each
  obtain ⟨⟨l, spells, opens, takes⟩, others⟩ := each
  have rest : ∀ item ∈ items, ReadsBack d item.render (parseSelectItem (nestedParsers d n))
      (fun rest => endsItem (next? rest) = true) item := by
    intro item member
    obtain ⟨l, spells, -, takes⟩ := others item member
    exact ⟨l, spells, takes⟩
  obtain ⟨more, spell, take⟩ := commaList_opens (fun rest => rfl) spells takes rest
  refine ⟨fun spaced => l spaced ++ more, spell, fun spaced rest => ?_, take⟩
  rw [List.append_assoc]
  exact opens spaced _

end Items

/-- Words behind a body that is not the last thing in the text or in a parenthesis. -/
def setWords : List String := ["EXCEPT", "INTERSECT", "MINUS", "UNION"]

def endsBody (token : Option Token) : Bool := stopsAt setWords token && token != some (.symbol ",")

section Selects

theorem selectOf_takes {g : Nested} {order : SelectOrder} {quantifiers : List Expr}
    {items : List SelectItem} {sources : List FromItem} {filter : Option Expr}
    {tokens : List Lexeme}
    (filtered : parseOptional "WHERE" (parseExpr g) tokens = .ok (filter, rest))
    (ends : endsBody (next? rest) = true) :
    selectOf g order quantifiers items sources tokens =
      .ok (⟨order, quantifiers, items, sources, filter, []⟩, rest) := by
  simp only [endsBody, Bool.and_eq_true] at ends
  have other {keyword : String} (absent : keyword ∉ setWords) : keyword? rest ≠ some keyword :=
    keyword_ne_of_stops ends.1 absent
  have group : parseGroupBy g rest = .ok ([], rest) :=
    bind_of (eatWords_other (other (by decide))) rfl
  have having : parseClause g "HAVING" rest = .ok ([], rest) :=
    bind_of (eatWord_other (other (by decide))) rfl
  have windows : parseNamedWindows g rest = .ok ([], rest) :=
    bind_of (eatWord_other (other (by decide))) rfl
  have qualify : parseClause g "QUALIFY" rest = .ok ([], rest) :=
    bind_of (eatWord_other (other (by decide))) rfl
  refine bind_of filtered (bind_of group (bind_of having ?_))
  exact bind_of (bind_of windows (bind_of qualify rfl)) rfl

/-- A select of items from sources, with or without a filter. -/
def selectAll (items : List SelectItem) (sources : List FromItem) (filter : Option Expr) : Select :=
  ⟨.standard, [], items, sources, filter, []⟩

theorem render_selectAll {items : List SelectItem} {sources : List FromItem}
    (filter : Option Expr) (projected : items ≠ []) (nonempty : sources ≠ []) :
    Select.render (selectAll items sources filter) =
      "SELECT" ++ " " ++ commaJoin (items.map SelectItem.render) ++ " " ++ "FROM" ++ " " ++
        commaJoin (sources.map FromItem.render) ++ renderFilter filter := by
  simp [selectAll, Select.render, renderSelect, renderItems_eq_map, renderSources_eq_map, listAfter,
    renderExprs, Sql.spaced, projected, nonempty]
  have word : " FROM " = " " ++ "FROM" ++ " " := rfl
  have head : "SELECT " = "SELECT" ++ " " := rfl
  simp only [word, head, String.append_assoc]

/-- A select is read as a body if its parts are read, one behind the other. -/
theorem parseSetOperand_select {g : Nested} {items : List SelectItem} {sources : List FromItem}
    {filter : Option Expr} {tokens m m' : List Lexeme} (spaced : Bool)
    (other : ∀ keyword ∈ notOpeners, keyword? tokens ≠ some keyword)
    (projection : commaList (parseSelectItem g) tokens =
      .ok (items, ⟨.word "FROM" none, true⟩ :: m))
    (tables : parseSources g m = .ok (sources, m'))
    (filtered : parseOptional "WHERE" (parseExpr g) m' = .ok (filter, rest))
    (ends : endsBody (next? rest) = true) :
    parseSetOperand g (⟨.word "SELECT" none, spaced⟩ :: tokens) =
      .ok (.select (selectAll items sources filter), rest) := by
  have select : keywordText "SELECT" = "SELECT" := rfl
  have fromWord : keywordText "FROM" = "FROM" := rfl
  have behind : (do
      let projection ← commaList (parseSelectItem g)
      let sources ← if ← eatWord "FROM" then parseSources g else pure []
      selectOf g .standard [] projection sources : Parse Select) tokens =
        .ok (selectAll items sources filter, rest) := by
    refine bind_of projection (bind_of (eatWord_here fromWord _) ?_)
    exact bind_of tables (selectOf_takes filtered ends)
  have body : parseSelectBody g none (⟨.word "SELECT" none, spaced⟩ :: tokens) =
      .ok (selectAll items sources filter, rest) := by
    refine bind_of (expectWord_here select _) ?_
    refine bind_of (bind_of (eatWord_other (other _ (by decide)))
      (bind_of (eatWord_other (other _ (by decide))) rfl)) ?_
    refine bind_of (eatWord_other (other _ (by decide))) (bind_of rfl ?_)
    cases g.dialect.hasEmptyProjection with
    | true => exact bind_of (isWordAt_other (other _ (by decide))) behind
    | false => exact bind_of rfl behind
  have word : keyword? (⟨.word "SELECT" none, spaced⟩ :: tokens) = some "SELECT" := rfl
  refine bind_of (isOneOfAt_zero _ _) ?_
  exact bind_of (bind_of (eatWordIf_other _ (by rw [word]; decide)) body) rfl

theorem select_operand_reads {ends : Option Token → Bool} {items : List SelectItem}
    {sources : List FromItem} {filter : Option Expr}
    (comma : ends (some (.symbol ",")) = true) (behind : ends (some (.word "WHERE" none)) = true)
    (projected : items ≠ []) (eachItem : ∀ item ∈ items, ItemReads d (n + 1) item)
    (nonempty : sources ≠ []) (each : ∀ item ∈ sources, SourceReads d (n + 1) ends item)
    (filters : ∀ e ∈ filter, StandsAlone d n e) :
    ∃ ls, Spells d (Select.render (selectAll items sources filter)) ls ∧
      OpensWith (.word "SELECT" none) ls ∧
      Takes (parseSetOperand (nestedParsers d (n + 1)))
        (fun rest => ends (next? rest) = true ∧ endsBody (next? rest) = true) ls
        (.select (selectAll items sources filter)) := by
  obtain ⟨li, spellsI, opens, takesI⟩ := items_read projected eachItem
  obtain ⟨ls, spellsS, takesS⟩ := sources_read comma nonempty each
  obtain ⟨tail, appends, opensF, taken⟩ := exists_filter_lexing filters
  refine ⟨fun spaced => ⟨.word "SELECT" none, spaced⟩ ::
    (li true ++ ⟨.word "FROM" none, true⟩ :: (ls true ++ tail)), ?_, fun spaced => ?_, ?_⟩
  · rw [render_selectAll filter projected nonempty]
    have front := (((spells_letters (d := d) "SELECT" (by decide) (by decide)).blank spellsI).blank
      (spells_letters "FROM" (by decide) (by decide))).blank spellsS
    simpa using appends front
  · obtain ⟨token, more, split, opener⟩ :=
      opens true (⟨.word "FROM" none, true⟩ :: (ls true ++ tail))
    refine ⟨_, rfl, ?_⟩
    rw [split]
    exact isOpener_apart opener
  · rintro spaced rest ⟨endsRest, stops⟩
    have apart := stops
    simp only [endsBody, Bool.and_eq_true, bne_iff_ne] at apart
    obtain ⟨token, more, split, opener⟩ :=
      opens true (⟨.word "FROM" none, true⟩ :: (ls true ++ (tail ++ rest)))
    have filtered := taken rest (ends_of_stops apart.1 (by decide) d 0)
      (keyword_ne_of_stops apart.1 (by decide))
    simp only [List.cons_append, List.append_assoc]
    refine parseSetOperand_select spaced (fun keyword member => ?_) (takesI true _ ⟨rfl, by simp⟩)
      (takesS true (tail ++ rest) ⟨?_, ?_⟩) filtered stops
    · rw [split]
      exact fun same => keyword_of_opener opener keyword same member
    · exact opensF.next (P := fun token => ends token = true) behind endsRest
    · exact opensF.next (P := fun token => token ≠ some (.symbol ",")) (by simp) apart.2

end Selects

def SetOp.level : SetOp → Nat
  | .intersect => 20
  | _ => 10

def SetQuantifier.words : SetQuantifier → List String
  | .none => []
  | .all => ["ALL"]
  | .distinct => ["DISTINCT"]
  | .byName => ["BY", "NAME"]
  | .allByName => ["ALL", "BY", "NAME"]
  | .distinctByName => ["DISTINCT", "BY", "NAME"]

/-- What follows ends a body whose operators bind no looser than `level`. -/
def EndsBody (level : Nat) (rest : List Lexeme) : Prop :=
  endsBody (next? rest) = true ∧
    ∃ found, parseSetOp rest = .ok (found, rest) ∧ ∀ o ∈ found, o.2 ≤ level

/-- Parsing goes through the lexemes to the body, and on from there, as it does for an expression.
The steps that are left suffice for the operators above the level. -/
def BodyBuilds (d : Dialect) (n : Nat) (ls : Bool → List Lexeme) (body : SetExpr)
    (floor ceiling : Nat) : Prop :=
  ∀ ⦃steps spaced rest level result⦄, 20 ≤ level + 10 * steps → level < ceiling →
    EndsBody floor rest →
    (∀ fuel, rest.length ≤ fuel →
      iterate (parseSetOperations (parseSetExprUpTo (nestedParsers d n) steps) level) fuel body
        rest = result) →
    parseSetExprUpTo (nestedParsers d n) (steps + 1) level (ls spaced ++ rest) = result

/-- A body reads back: what follows may bind no tighter than `floor`, and what stands in front no
tighter than `ceiling`. -/
def BodyReads (d : Dialect) (n : Nat) (body : SetExpr) (floor ceiling : Nat) : Prop :=
  ∃ ls, Spells d body.render ls ∧ OpensWith body.opening ls ∧ BodyBuilds d n ls body floor ceiling

section Bodies

variable {ls : Bool → List Lexeme} {body : SetExpr} {floor ceiling : Nat}

theorem EndsBody.mono {low high : Nat} (ends : EndsBody low rest) (le : low ≤ high) :
    EndsBody high rest := by
  obtain ⟨stops, found, peeked, bound⟩ := ends
  exact ⟨stops, found, peeked, fun o member => Nat.le_trans (bound o member) le⟩

theorem endsQuery_cases (ends : endsQuery (next? rest) = true) :
    rest = [] ∨ ∃ spaced more, rest = ⟨.symbol ")", spaced⟩ :: more := by
  cases rest with
  | nil => exact .inl rfl
  | cons lexeme more =>
    obtain ⟨token, spaced⟩ := lexeme
    obtain rfl : token = .symbol ")" := by simpa [endsQuery] using ends
    exact .inr ⟨spaced, more, rfl⟩

theorem endsBody_of_endsQuery (ends : endsQuery (next? rest) = true) (level : Nat) :
    EndsBody level rest := by
  obtain rfl | ⟨spaced, more, rfl⟩ := endsQuery_cases ends
  · exact ⟨rfl, none, rfl, by simp⟩
  · exact ⟨rfl, none, rfl, by simp⟩

theorem parseSetOperations_stops {right : Nat → Parse SetExpr} {level : Nat}
    (ends : EndsBody level rest) :
    parseSetOperations right level body rest = .ok (none, rest) := by
  obtain ⟨-, found, peeked, bound⟩ := ends
  refine bind_of peeked ?_
  cases found with
  | none => rfl
  | some o =>
    have loose := bound o rfl
    simp only
    rw [if_pos loose]
    rfl

theorem BodyBuilds.reads (builds : BodyBuilds d n ls body floor ceiling) {steps level : Nat}
    (enough : 20 ≤ level + 10 * steps) (below : level < ceiling) (endsFloor : EndsBody floor rest)
    (ends : EndsBody level rest) (spaced : Bool) :
    parseSetExprUpTo (nestedParsers d n) (steps + 1) level (ls spaced ++ rest) =
      .ok (body, rest) := by
  refine builds enough below endsFloor fun fuel _ => ?_
  cases fuel with
  | zero => exact bind_of (parseSetOperations_stops ends) rfl
  | succ fuel => exact bind_of (parseSetOperations_stops ends) rfl

/-- A select, rows or a query in parentheses. -/
theorem body_operand
    (takes : Takes (parseSetOperand (nestedParsers d n)) (fun rest => endsBody (next? rest) = true)
      ls body) (floor ceiling : Nat) : BodyBuilds d n ls body floor ceiling := by
  intro steps spaced rest level result _ _ ends goes
  exact bind_of (takes spaced rest ends.1) (bind_of rfl (goes rest.length (Nat.le_refl _)))

theorem opening_cases {ν : Type} : ∀ body : SetExpr ν,
    body.opening = .word "SELECT" none ∨ body.opening = .symbol "("
  | .select _ => .inl rfl
  | .operation _ _ left _ => opening_cases left
  | .query _ | .values _ _ | .insert _ | .update _ | .delete _ => .inr rfl

theorem query_opening_cases {ν : Type} (q : Query ν) :
    q.opening = .word "SELECT" none ∨ q.opening = .word "WITH" none ∨ q.opening = .symbol "(" := by
  unfold Query.opening
  split
  · exact (opening_cases q.body).imp_right .inr
  · exact .inr (.inl rfl)

theorem spaced_setWords (op : SetOp) (quantifier : SetQuantifier) :
    Sql.spaced (op.text :: quantifier.words) = " " ++ op.text ++ quantifier.text := by
  cases op <;> cases quantifier <;> decide

/-- The quantifier is read in front of a body. -/
theorem parseSetQuantifier_takes (quantifier : SetQuantifier) {token : Token} {spaced : Bool}
    (opens : token = .word "SELECT" none ∨ token = .symbol "(") (tokens : List Lexeme) :
    parseSetQuantifier (wordLexemes quantifier.words ++ ⟨token, spaced⟩ :: tokens) =
      .ok (quantifier, ⟨token, spaced⟩ :: tokens) := by
  rcases opens with rfl | rfl <;> cases quantifier <;> rfl

/-- Two bodies with an operator between them. -/
theorem BodyBuilds.operation {ll lr : Bool → List Lexeme} {l r : SetExpr} {op : SetOp}
    {floorL floorR ceilingL ceilingR : Nat} (left : BodyBuilds d n ll l floorL ceilingL)
    (right : BodyBuilds d n lr r floorR ceilingR) (opens : OpensWith r.opening lr)
    (loose : op.level ≤ floorL) (tight : op.level < ceilingR) (quantifier : SetQuantifier) :
    BodyBuilds d n (fun spaced => ll spaced ++ (wordLexemes (op.text :: quantifier.words) ++
      lr true)) (.operation op quantifier l r) (min op.level floorR) (min op.level ceilingL) := by
  intro steps spaced rest level result enough under ends goes
  have above : level < op.level := Nat.lt_of_lt_of_le under (Nat.min_le_left _ _)
  have levels : op.level = 10 ∨ op.level = 20 := by cases op <;> decide
  have here (tokens : List Lexeme) :
      parseSetOp (wordLexemes (op.text :: quantifier.words) ++ tokens) =
        .ok (some (op, op.level), wordLexemes (op.text :: quantifier.words) ++ tokens) := by
    cases op <;> rfl
  have stops (tokens : List Lexeme) :
      endsBody (next? (wordLexemes (op.text :: quantifier.words) ++ tokens)) = true := by
    cases op <;> rfl
  obtain ⟨more, split, -⟩ := opens true
  have step : parseSetOperations (parseSetExprUpTo (nestedParsers d n) steps) level l
      (wordLexemes (op.text :: quantifier.words) ++ (lr true ++ rest)) =
        .ok (some (.operation op quantifier l r), rest) := by
    -- The right side is read one step further in, but above an operator that binds tighter.
    obtain ⟨steps, rfl⟩ : ∃ left, steps = left + 1 := ⟨steps - 1, by omega⟩
    have fewer : 20 ≤ op.level + 10 * steps := by omega
    have read := right.reads fewer tight (ends.mono (Nat.min_le_right _ _))
      (ends.mono (Nat.min_le_left _ _)) true
    refine bind_of (here _) ?_
    simp only [if_neg (Nat.not_le.mpr above)]
    refine bind_of (a := ()) (m := wordLexemes quantifier.words ++ (lr true ++ rest)) rfl ?_
    refine bind_of (a := quantifier) (m := lr true ++ rest) ?_ (bind_of read rfl)
    rw [split]
    exact parseSetQuantifier_takes quantifier (opening_cases r) _
  rw [List.append_assoc, List.append_assoc]
  refine left enough (Nat.lt_of_lt_of_le under (Nat.min_le_right _ _))
    ⟨stops _, _, here _, by simpa using loose⟩ fun fuel full => ?_
  cases fuel with
  | zero => simp [wordLexemes] at full
  | succ fuel =>
    refine bind_of step (goes fuel ?_)
    simp only [wordLexemes, List.map_cons, List.cons_append, List.length_cons,
      List.length_append] at full
    omega

theorem operation_reads {l r : SetExpr} {op : SetOp} {floorL floorR ceilingL ceilingR : Nat}
    (left : BodyReads d n l floorL ceilingL) (right : BodyReads d n r floorR ceilingR)
    (loose : op.level ≤ floorL) (tight : op.level < ceilingR) (quantifier : SetQuantifier) :
    BodyReads d n (.operation op quantifier l r) (min op.level floorR) (min op.level ceilingL) := by
  obtain ⟨ll, spellsL, opensL, buildsL⟩ := left
  obtain ⟨lr, spellsR, opensR, buildsR⟩ := right
  refine ⟨_, ?_, fun spaced => ?_, buildsL.operation buildsR opensR loose tight quantifier⟩
  · have letters : ∀ word ∈ op.text :: quantifier.words, isKeywordText word = true := by
      cases op <;> cases quantifier <;> decide
    have words := (appends_words (d := d) _ letters).append spellsR.appends spellsL
    rw [spaced_setWords] at words
    simpa only [SetExpr.render, String.append_assoc] using words
  · obtain ⟨more, split, comma, close⟩ := opensL spaced
    refine ⟨more ++ (wordLexemes (op.text :: quantifier.words) ++ lr true), ?_, ?_, ?_⟩
    · simp only [split, List.cons_append, SetExpr.opening]
    · cases more with
      | nil => simp [wordLexemes]
      | cons lexeme more => exact comma
    · cases more with
      | nil => simp [wordLexemes]
      | cons lexeme more => exact close

theorem select_body_reads {items : List SelectItem} {sources : List FromItem}
    {filter : Option Expr} (projected : items ≠ [])
    (eachItem : ∀ item ∈ items, ItemReads d (n + 1) item) (nonempty : sources ≠ [])
    (each : ∀ item ∈ sources, SourceReads d (n + 1) (stopsAt sourceWords) item)
    (filters : ∀ e ∈ filter, StandsAlone d n e) (floor ceiling : Nat) :
    BodyReads d (n + 1) (.select (selectAll items sources filter)) floor ceiling := by
  obtain ⟨ls, spells, opens, takes⟩ :=
    select_operand_reads rfl rfl projected eachItem nonempty each filters
  refine ⟨ls, spells, opens,
    body_operand (fun spaced rest ends => takes spaced rest ⟨?_, ends⟩) _ _⟩
  simp only [endsBody, Bool.and_eq_true] at ends
  exact stopsAt_mono ends.1 (by decide)

/-- A query in parentheses is a body too. -/
theorem query_body_reads {q : Query} (query : QueryReads d n q) (floor ceiling : Nat) :
    BodyReads d (n + 1) (.query q) floor ceiling := by
  obtain ⟨lq, spells, opens, takes⟩ := query
  refine ⟨groupLexemes lq, spells.parenthesized, fun spaced => ?_, body_operand ?_ _ _⟩
  · obtain ⟨more, split, -⟩ := opens false
    refine ⟨_, rfl, ?_⟩
    rw [split]
    rcases query_opening_cases q with same | same | same <;> simp [same]
  · intro spaced rest _
    rw [groupLexemes, List.cons_append, List.append_assoc]
    refine bind_of (isOneOfAt_other (by simp)) (bind_of (eat_here "(" _) ?_)
    exact bind_of (takes false _ rfl) (bind_of (expect_here ")" rest) rfl)

end Bodies

/-- A common table expression reads back, and its name is not taken for RECURSIVE. -/
def CteReads (d : Dialect) (n : Nat) (cte : Cte) : Prop :=
  ∃ ls, Spells d cte.render ls ∧
    (∀ spaced, ∃ ident more, ls spaced = ⟨.word (Ident.text ident) ident.quote, spaced⟩ :: more ∧
      ident.formWord ≠ "RECURSIVE") ∧
    Takes (parseCte (nestedParsers d n)) (fun _ => True) ls cte

section Queries

variable {body : SetExpr} {floor ceiling : Nat}

/-- The words in front of the query of a common table expression. -/
def hintWords : Option Bool → List String
  | none => []
  | some true => ["MATERIALIZED"]
  | some false => ["NOT", "MATERIALIZED"]

theorem parseMaterialized_takes {g : Nested} {materialized : Option Bool}
    (known : materialized = none ∨ g.dialect = .postgres) (spaced : Bool)
    (tokens : List Lexeme) :
    parseMaterialized g (wordLexemes (hintWords materialized) ++ ⟨.symbol "(", spaced⟩ :: tokens) =
      .ok (materialized, ⟨.symbol "(", spaced⟩ :: tokens) := by
  unfold parseMaterialized
  cases materialized with
  | none => cases g.dialect <;> rfl
  | some hint =>
    rw [known.resolve_left nofun]
    cases hint <;> rfl

theorem cte_reads {name : Ident} {columns : List Ident} {materialized : Option Bool} {q : Query}
    (plain : name.isPlain d = true) (word : name.formWord ≠ "RECURSIVE")
    (idents : ∀ ident ∈ columns, ident.isPlain d = true)
    (known : materialized = none ∨ d = .postgres) (query : QueryReads d n q) :
    CteReads d (n + 1) ⟨name, columns, materialized, q⟩ := by
  obtain ⟨lq, spells, -, takes⟩ := query
  refine ⟨fun spaced => identLexemes name spaced ++ (listLexemes columns ++
    (⟨.word "AS" none, true⟩ :: (wordLexemes (hintWords materialized) ++
      groupLexemes lq true))), ?_, fun spaced => ⟨name, _, rfl, word⟩, ?_⟩
  · have as : Appends d (" " ++ "AS") [⟨.word "AS" none, true⟩] :=
      (spells_letters "AS" (by decide) (by decide)).appends
    have hint : Appends d (Sql.spaced (hintWords materialized))
        (wordLexemes (hintWords materialized)) :=
      appends_words _ (by rcases materialized with _ | _ | _ <;> decide)
    have all := (appends_list idents).append (as.append (hint.append spells.parenthesized.appends))
    have text : Cte.render ⟨name, columns, materialized, q⟩ = name.render ++ (columnList columns ++
        (" " ++ "AS" ++ (Sql.spaced (hintWords materialized) ++
          (" " ++ ("(" ++ q.render ++ ")"))))) := by
      refine String.toList_inj.mp ?_
      rcases materialized with _ | _ | _ <;>
        simp [Cte.render, renderCte, hintWords, Sql.spaced]
    rw [text]
    exact all (spells_ident plain)
  · intro spaced rest _
    have here : keywordText "AS" = "AS" := rfl
    have postgres : materialized = none ∨ (nestedParsers d (n + 1)).dialect = .postgres := by
      rwa [dialect_nestedParsers]
    have hint := parseMaterialized_takes postgres true (lq false ++ mark ")" :: rest)
    have group : parenthesized (nestedParsers d (n + 1)).query
        (⟨.symbol "(", true⟩ :: (lq false ++ mark ")" :: rest)) = .ok (q, rest) :=
      bind_of (expect_here "(" _) (bind_of (takes false _ rfl) (bind_of (expect_here ")" _) rfl))
    have behind : (do
        expectWord "AS"
        let materialized ← parseMaterialized (nestedParsers d (n + 1))
        return ⟨name, columns, materialized, ← parenthesized (nestedParsers d (n + 1)).query⟩ :
          Parse Cte) (⟨.word "AS" none, true⟩ :: (wordLexemes (hintWords materialized) ++
            ⟨.symbol "(", true⟩ :: (lq false ++ mark ")" :: rest))) =
        .ok (⟨name, columns, materialized, q⟩, rest) :=
      bind_of (expectWord_here here _) (bind_of hint (bind_of group rfl))
    simp only [List.append_assoc, List.cons_append, identLexemes, List.nil_append, groupLexemes]
    refine bind_of (a := name) rfl ?_
    cases columns with
    | nil => exact bind_of rfl behind
    | cons column columns =>
      refine bind_of (isWordAt_zero "AS" _) ?_
      exact bind_of (columns_take (List.cons_ne_nil column columns) true _ trivial) behind

theorem parseQuery_takes {g : Nested} {write : Parse (Option SetExpr)} {recursive : Bool}
    {ctes : List Cte} {tokens m : List Lexeme}
    (front : parseWith g tokens = .ok ((recursive, ctes), m)) (reads : write m = .ok (none, m))
    (taken : parseSetExpr g m = .ok (body, rest)) (ends : endsQuery (next? rest) = true) :
    parseQuery g write tokens = .ok (⟨recursive, ctes, body, []⟩, rest) := by
  have behind : (do
      let order ← parseOrderBy g
      let limit ← parseLimit g
      let fetch ← parseFetch g
      let locks ← repeated parseLock
      return ⟨recursive, ctes, body, order ++ limit ++ fetch ++ locks⟩ : Parse Query) rest =
        .ok (⟨recursive, ctes, body, []⟩, rest) := by
    obtain rfl | ⟨spaced, more, rfl⟩ := endsQuery_cases ends
    · rfl
    · rfl
  exact bind_of front (bind_of reads (bind_of taken behind))

theorem parseWrite_none {tokens : List Lexeme}
    (other : ∀ keyword ∈ keyword? tokens, keyword ∉ ["INSERT", "UPDATE", "DELETE"]) :
    parseWrite (nestedParsers d n) tokens = .ok (none, tokens) := by
  have apart {keyword : String} (member : keyword ∈ ["INSERT", "UPDATE", "DELETE"]) :
      eatWord keyword tokens = .ok (false, tokens) :=
    eatWord_other fun same => other keyword same member
  exact bind_of (apart (by decide)) (bind_of (apart (by decide)) (bind_of (apart (by decide)) rfl))

/-- A query that is no more than its body. -/
theorem BodyBuilds.query {ls : Bool → List Lexeme} (builds : BodyBuilds d n ls body floor ceiling)
    (positive : 0 < ceiling) {spaced : Bool}
    (other : ∀ keyword ∈ keyword? (ls spaced ++ rest),
      keyword ∉ ["WITH", "INSERT", "UPDATE", "DELETE"])
    (ends : endsQuery (next? rest) = true) :
    (nestedParsers d (n + 1)).query (ls spaced ++ rest) =
      .ok (⟨false, [], body, []⟩, rest) := by
  have bare : eatWord "WITH" (ls spaced ++ rest) = .ok (false, ls spaced ++ rest) :=
    eatWord_other fun same => other _ same List.mem_cons_self
  have write := parseWrite_none (d := d) (n := n) fun keyword same member =>
    other keyword same (List.mem_cons_of_mem _ member)
  have enough : 20 ≤ 0 + 10 * 2 := by decide
  have taken := builds.reads enough positive
    (endsBody_of_endsQuery ends floor) (endsBody_of_endsQuery ends 0) spaced
  exact parseQuery_takes (bind_of bare rfl) write taken ends

theorem renderCtes_eq_map (ctes : List Cte) : renderCtes ctes = ctes.map Cte.render := by
  induction ctes with
  | nil => rfl
  | cons cte ctes ih => rw [renderCtes, ih, List.map_cons]

theorem ctes_read {ctes : List Cte} (nonempty : ctes ≠ []) (each : ∀ cte ∈ ctes, CteReads d n cte) :
    ∃ ls, Spells d (commaJoin (ctes.map Cte.render)) ls ∧
      (∀ spaced, ∃ ident more, ls spaced = ⟨.word (Ident.text ident) ident.quote, spaced⟩ :: more ∧
        ident.formWord ≠ "RECURSIVE") ∧
      Takes (commaList (parseCte (nestedParsers d n)))
        (fun rest => True ∧ next? rest ≠ some (.symbol ",")) ls ctes := by
  obtain ⟨cte, ctes, rfl⟩ := List.exists_cons_of_ne_nil nonempty
  rw [List.forall_mem_cons] at each
  obtain ⟨⟨l, spells, opens, takes⟩, others⟩ := each
  have rest : ∀ cte ∈ ctes, ReadsBack d cte.render (parseCte (nestedParsers d n))
      (fun _ => True) cte := by
    intro cte member
    obtain ⟨l, spells, -, takes⟩ := others cte member
    exact ⟨l, spells, takes⟩
  obtain ⟨more, spell, take⟩ := commaList_opens (fun _ => trivial) spells takes rest
  refine ⟨fun spaced => l spaced ++ more, spell, fun spaced => ?_, take⟩
  obtain ⟨ident, tail, split, word⟩ := opens spaced
  exact ⟨ident, tail ++ more, by simp only [split, List.cons_append], word⟩

def recursiveWords (recursive : Bool) : List String := if recursive then ["RECURSIVE"] else []

theorem eatWord_recursive (recursive : Bool) {tokens : List Lexeme}
    (other : keyword? tokens ≠ some "RECURSIVE") :
    eatWord "RECURSIVE" (wordLexemes (recursiveWords recursive) ++ tokens) =
      .ok (recursive, tokens) := by
  have here : keywordText "RECURSIVE" = "RECURSIVE" := rfl
  cases recursive with
  | true => exact eatWord_here here tokens
  | false => exact eatWord_other other

theorem opening_other (body : SetExpr) (spaced : Bool) (tokens : List Lexeme) :
    ∀ keyword ∈ keyword? (⟨body.opening, spaced⟩ :: tokens),
      keyword ∉ ["WITH", "INSERT", "UPDATE", "DELETE"] := by
  rcases opening_cases body with same | same <;> rw [same] <;> rintro keyword ⟨⟩
  decide

/-- A query with common table expressions in front of its body. -/
theorem with_reads {recursive : Bool} {ctes : List Cte} (nonempty : ctes ≠ [])
    (each : ∀ cte ∈ ctes, CteReads d n cte) (reads : BodyReads d n body floor ceiling)
    (positive : 0 < ceiling) : QueryReads d n ⟨recursive, ctes, body, []⟩ := by
  obtain ⟨lb, spells, opens, builds⟩ := reads
  obtain ⟨lc, spellsC, opensC, takesC⟩ := ctes_read nonempty each
  obtain ⟨ident, more, split, word⟩ := opensC true
  have listed : ctes.isEmpty = false := by simpa using nonempty
  refine ⟨fun spaced => ⟨.word "WITH" none, spaced⟩ :: (wordLexemes (recursiveWords recursive) ++
    (lc true ++ lb true)), ?_, fun spaced => ?_, ?_⟩
  · have front := spells_letters (d := d) "WITH" (by decide) (by decide)
    have words : Appends d (Sql.spaced (recursiveWords recursive))
        (wordLexemes (recursiveWords recursive)) :=
      appends_words _ (by cases recursive <;> decide)
    have all := (words.append (spellsC.appends.append spells.appends)) front
    have text : Query.render ⟨recursive, ctes, body, []⟩ = "WITH" ++
        (Sql.spaced (recursiveWords recursive) ++ (" " ++ commaJoin (ctes.map Cte.render) ++
          (" " ++ body.render))) := by
      refine String.toList_inj.mp ?_
      cases recursive <;>
        simp [Query.render, listed, renderCtes_eq_map, recursiveWords, Sql.spaced, renderExprs]
    rw [text]
    exact all
  · refine ⟨_, by rw [Query.opening, listed]; rfl, ?_⟩
    cases recursive <;> simp [recursiveWords, wordLexemes, split]
  · intro spaced rest ends
    obtain ⟨behind, same, -⟩ := opens true
    have here : keywordText "WITH" = "WITH" := rfl
    have comma : next? (lb true ++ rest) ≠ some (.symbol ",") := by
      rw [same]
      rcases opening_cases body with start | start <;> simp [start]
    have plain : keyword? (lc true ++ (lb true ++ rest)) ≠ some "RECURSIVE" := by
      rw [split]
      exact fun other => word (Ident.formWord_eq "RECURSIVE" other)
    have recursion := eatWord_recursive recursive plain
    have front : parseWith (nestedParsers d n) (⟨.word "WITH" none, spaced⟩ ::
        (wordLexemes (recursiveWords recursive) ++ (lc true ++ (lb true ++ rest)))) =
          .ok ((recursive, ctes), lb true ++ rest) := by
      refine bind_of (eatWord_here here _) (bind_of recursion ?_)
      exact bind_of (takesC true _ ⟨trivial, comma⟩) rfl
    have write : parseWrite (nestedParsers d n) (lb true ++ rest) =
        .ok (none, lb true ++ rest) := by
      rw [same]
      exact parseWrite_none fun keyword found member =>
        opening_other body true _ keyword found (List.mem_cons_of_mem _ member)
    have enough : 20 ≤ 0 + 10 * 2 := by decide
    have taken := builds.reads enough positive
      (endsBody_of_endsQuery ends floor) (endsBody_of_endsQuery ends 0) true
    simp only [List.cons_append, List.append_assoc]
    exact parseQuery_takes front write taken ends

theorem body_query_reads (reads : BodyReads d n body floor ceiling) (positive : 0 < ceiling) :
    QueryReads d n ⟨false, [], body, []⟩ := by
  obtain ⟨lb, spells, opens, builds⟩ := reads
  refine ⟨lb, ?_, opens, fun spaced rest ends => builds.query positive ?_ ends⟩
  · simpa [Query.render, renderExprs, Sql.spaced] using spells
  · obtain ⟨more, split, -⟩ := opens spaced
    rw [split]
    exact opening_other body spaced _

/-- A query with the common table expressions in front of its body, if there are any. -/
theorem query_reads {recursive : Bool} {ctes : List Cte} (each : ∀ cte ∈ ctes, CteReads d n cte)
    (plain : ctes = [] → recursive = false) (reads : BodyReads d n body floor ceiling)
    (positive : 0 < ceiling) : QueryReads d n ⟨recursive, ctes, body, []⟩ := by
  cases ctes with
  | nil =>
    obtain rfl := plain rfl
    exact body_query_reads reads positive
  | cons cte ctes => exact with_reads (List.cons_ne_nil cte ctes) each reads positive

end Queries

section Subqueries

variable {e : Expr} {q : Query} {floor ceiling : Nat}

/-- IN with a query. -/
theorem exists_continues_inQuery (negated : Bool) (query : QueryReads d n q)
    (loose : (precedence d).between ≤ floor) (floor' : Nat) :
    ∃ tail, Continues d (n + 1) e (.inQuery negated e q) tail floor floor'
      (precedence d).between := by
  obtain ⟨lq, spells, -, takes⟩ := query
  refine ⟨_, continues_in negated rfl spells.parenthesized (fun rest => ?_) loose floor'⟩
  refine bind_of (expect_here "(" _) (bind_of (attempt_some (takes false _ rfl)) ?_)
  exact bind_of (expect_here ")" _) rfl

theorem opensWith_group {lq : Bool → List Lexeme} (opens : OpensWith q.opening lq) :
    next? (lq false ++ [mark ")"]) ≠ some (.symbol ",") ∧
      next? (lq false ++ [mark ")"]) ≠ some (.symbol ")") := by
  obtain ⟨more, split, -⟩ := opens false
  rw [split]
  rcases query_opening_cases q with same | same | same <;> simp [same]

/-- The test whether a query has rows. -/
theorem existence_reads (negated : Bool) (query : QueryReads d n q) (floor ceiling : Nat) :
    ExprReads d (n + 1) (.existence negated q) floor ceiling := by
  obtain ⟨lq, spells, opens, takes⟩ := query
  obtain ⟨more, split, comma, close⟩ := opens false
  have group (rest : List Lexeme) : parenthesized (nestedParsers d (n + 1)).query
      (groupLexemes lq true ++ rest) = .ok (q, rest) :=
    parenthesized_takes takes (fun _ => rfl) true rest trivial
  have word := spells_letters (d := d) "EXISTS" (by decide) (by decide)
  have existence := word.blank spells.parenthesized
  cases negated with
  | false =>
    refine ⟨fun spaced => ⟨.word "EXISTS" none, spaced⟩ :: groupLexemes lq true, ?_,
      fun spaced => ⟨_, _, rfl, by decide, by simp [groupLexemes], by simp [groupLexemes]⟩, nofun,
      builds_operand (fun spaced rest quiet => ?_) _ _⟩
    · have text : Expr.render (.existence false q) =
          "EXISTS" ++ " " ++ ("(" ++ q.render ++ ")") := by
        refine String.toList_inj.mp ?_
        simp [Expr.render, notWord]
      rw [text]
      exact existence
    · have untyped : parseTyped (nestedParsers d (n + 1))
          (⟨.word "EXISTS" none, spaced⟩ :: (groupLexemes lq true ++ rest)) =
            .error .unexpected := by
        rw [groupLexemes, split, List.cons_append, List.cons_append, List.cons_append,
          List.append_assoc]
        exact parseTyped_group _ (by decide) comma close quiet
      exact parseDotted_alone (parseOperand_word _ (parseWordOperand_special untyped
        (bind_of (bind_of (group rest) rfl) rfl)) (keyword_of_quiet quiet (by decide))) quiet
  | true =>
    refine ⟨fun spaced => ⟨.word "NOT" none, spaced⟩ :: ⟨.word "EXISTS" none, true⟩ ::
      groupLexemes lq true, ?_, fun spaced => ⟨_, _, rfl, by decide, by simp, by simp⟩, nofun,
      builds_operand (fun spaced rest quiet => ?_) _ _⟩
    · have text : Expr.render (.existence true q) =
          "NOT" ++ " " ++ ("EXISTS" ++ " " ++ ("(" ++ q.render ++ ")")) := by
        refine String.toList_inj.mp ?_
        simp [Expr.render, notWord]
      rw [text]
      exact (spells_letters (d := d) "NOT" (by decide) (by decide)).blank existence
    · have untyped : parseTyped (nestedParsers d (n + 1)) (⟨.word "NOT" none, spaced⟩ ::
          ⟨.word "EXISTS" none, true⟩ :: (groupLexemes lq true ++ rest)) = .error .unexpected :=
        untyped_not _ (by simp) spaced true
      have here : keywordText "EXISTS" = "EXISTS" := rfl
      exact parseDotted_alone (parseOperand_word _ (parseWordOperand_special untyped
        (bind_of (bind_of (eatWord_here here _) (bind_of (group rest) rfl)) rfl))
        (keyword_of_quiet quiet (by decide))) quiet

/-- The value of a query. -/
theorem subquery_reads (query : QueryReads d n q) (word : q.opening ≠ .symbol "(")
    (floor ceiling : Nat) : ExprReads d (n + 1) (.subquery q) floor ceiling := by
  obtain ⟨lq, spells, opens, takes⟩ := query
  refine ⟨groupLexemes lq, spells.parenthesized,
    fun spaced => ⟨_, _, rfl, by decide, opensWith_group opens⟩, nofun,
    builds_operand (fun spaced rest quiet => ?_) _ _⟩
  have peeked : peekSubquery 0 (lq false ++ mark ")" :: rest) =
      .ok (true, lq false ++ mark ")" :: rest) := by
    obtain ⟨more, split, -⟩ := opens false
    rw [split]
    rcases query_opening_cases q with same | same | same
    · rw [same]
      rfl
    · rw [same]
      rfl
    · exact absurd same word
  have group : parseGroup (nestedParsers d (n + 1)) (lq false ++ mark ")" :: rest) =
      .ok (.subquery q, rest) :=
    bind_of peeked (bind_of (takes false _ rfl) (bind_of (expect_here ")" _) rfl))
  refine parseDotted_alone ?_ quiet
  rw [groupLexemes, List.cons_append, List.append_assoc]
  refine bind_of (peek_zero _) ?_
  simp only [next?_cons]
  refine bind_of (a := ()) (m := lq false ++ mark ")" :: rest) rfl (bind_of group ?_)
  exact bind_of (eatWord_other (keyword_of_quiet quiet (by decide))) rfl

end Subqueries

end SealedColumns.Sql

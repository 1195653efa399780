import SealedColumns.Proofs.Operators

/-!
What a statement reads from, as it reads back: tables, derived tables and joins, with the filter
behind them. Each part is asked to read back in front of what may follow it there.
-/
namespace SealedColumns.Sql

open SealedColumns.Text Parse

variable {d : Dialect} {n : Nat} {rest : List Lexeme}

/-- Nothing is next, or a comma, or the end of a parenthesis, or one of the words. -/
def stopsAt (words : List String) (token : Option Token) : Bool :=
  token.all fun token =>
    token == .symbol "," || token == .symbol ")" || token.keyword?.any words.contains

section Stops

variable {words words' : List String}

theorem stopsAt_cases (stops : stopsAt words (next? rest) = true) :
    rest = [] ∨ (∃ text more, text ∈ [")", ","] ∧ ∃ spaced, rest = ⟨.symbol text, spaced⟩ :: more) ∨
      ∃ text spaced more, rest = ⟨.word text none, spaced⟩ :: more ∧ keywordText text ∈ words := by
  cases rest with
  | nil => exact .inl rfl
  | cons lexeme more =>
    obtain ⟨token, spaced⟩ := lexeme
    cases token with
    | symbol text =>
      refine .inr (.inl ⟨text, more, ?_, spaced, rfl⟩)
      simpa [stopsAt, Token.keyword?, or_comm] using stops
    | word text quote =>
      cases quote with
      | none =>
        have member : keywordText text ∈ words := by simpa [stopsAt, Token.keyword?] using stops
        exact .inr (.inr ⟨text, spaced, more, rfl, member⟩)
      | some quote => simp [stopsAt, Token.keyword?] at stops
    | _ => simp [stopsAt, Token.keyword?] at stops

theorem stopsAt_mono (stops : stopsAt words (next? rest) = true)
    (among : ∀ word ∈ words, word ∈ words') :
    stopsAt words' (next? rest) = true := by
  obtain rfl | ⟨text, more, member, spaced, rfl⟩ | ⟨text, spaced, more, rfl, member⟩ :=
    stopsAt_cases stops
  · rfl
  · simpa [stopsAt, Token.keyword?, or_comm] using member
  · simpa [stopsAt, Token.keyword?] using among _ member

theorem keyword_of_stops (stops : stopsAt words (next? rest) = true) :
    ∀ keyword ∈ keyword? rest, keyword ∈ words := by
  obtain rfl | ⟨text, more, member, spaced, rfl⟩ | ⟨text, spaced, more, rfl, member⟩ :=
    stopsAt_cases stops
  · rintro keyword ⟨⟩
  · rintro keyword ⟨⟩
  · rintro keyword ⟨⟩
    exact member

theorem keyword_ne_of_stops {keyword : String} (stops : stopsAt words (next? rest) = true)
    (other : keyword ∉ words) : keyword? rest ≠ some keyword :=
  fun same => other (keyword_of_stops stops keyword same)

theorem symbol_ne_of_stops {text : String} (stops : stopsAt words (next? rest) = true)
    (other : text ∉ [")", ","]) : next? rest ≠ some (.symbol text) := by
  obtain rfl | ⟨text, more, member, spaced, rfl⟩ | ⟨text, spaced, more, rfl, -⟩ :=
    stopsAt_cases stops
  · simp
  · rintro ⟨⟩
    exact other member
  · simp

/-- Words that end an expression. -/
def closingWords : List String :=
  ["ANTI", "AS", "CROSS", "EXCEPT", "FROM", "FULL", "INNER", "INTERSECT", "JOIN", "LEFT", "MINUS",
    "NATURAL", "RIGHT", "SEMI", "SET", "UNION", "WHERE"]

theorem ends_word {text : String} (member : keywordText text ∈ closingWords) (d : Dialect)
    (level : Nat) (spaced : Bool) (rest : List Lexeme) :
    Ends d level (⟨.word text none, spaced⟩ :: rest) := by
  obtain ⟨found, zone⟩ := wordsAt_keeps ["TIME", "ZONE"] 1 (⟨.word text none, spaced⟩ :: rest)
  have quiet : ∀ word ∈ closingWords, quietWords.contains word = true := by decide
  refine ⟨by simpa [isQuiet, Token.keyword?] using quiet _ member, none, ?_, by simp⟩
  refine bind_of (peek_zero _) ?_
  simp only [next?_cons, Token.keyword?]
  generalize keywordText text = word at member
  simp only [closingWords, List.mem_cons, List.not_mem_nil, or_false] at member
  rcases member with rfl | rfl | rfl | rfl | rfl | rfl | rfl | rfl | rfl | rfl | rfl | rfl | rfl |
    rfl | rfl | rfl | rfl <;> exact bind_of zone rfl

theorem ends_of_stops (stops : stopsAt words (next? rest) = true)
    (among : ∀ word ∈ words, word ∈ closingWords) (d : Dialect) (level : Nat) :
    Ends d level rest := by
  obtain rfl | ⟨text, more, member, spaced, rfl⟩ | ⟨text, spaced, more, rfl, member⟩ :=
    stopsAt_cases stops
  · exact ends_nil d level
  · simp only [List.mem_cons, List.not_mem_nil, or_false] at member
    rcases member with rfl | rfl
    · exact ⟨rfl, none, rfl, by simp⟩
    · exact ⟨rfl, none, rfl, by simp⟩
  · exact ends_word (among _ member) d level spaced more

end Stops

/-- Behind any text that is lexemes, the text is these lexemes. -/
def Appends (d : Dialect) (text : String) (l : List Lexeme) : Prop :=
  ∀ ⦃front : String⦄ ⦃ls : Bool → List Lexeme⦄, Spells d front ls →
    Spells d (front ++ text) fun spaced => ls spaced ++ l

section Appends

variable {a b : String} {la lb : List Lexeme}

theorem Appends.nil : Appends d "" [] := fun _ _ spells => by simpa using spells

theorem Appends.append (first : Appends d a la) (second : Appends d b lb) :
    Appends d (a ++ b) (la ++ lb) := fun _ _ spells => by
  simpa only [String.append_assoc, List.append_assoc] using second (first spells)

theorem Spells.appends {ls : Bool → List Lexeme} (spells : Spells d b ls) :
    Appends d (" " ++ b) (ls true) := fun _ _ front => by
  simpa only [String.append_assoc] using front.blank spells

theorem appends_words (words : List String) (letters : ∀ word ∈ words, isKeywordText word = true) :
    Appends d (Sql.spaced words) (wordLexemes words) := fun _ _ spells =>
  spells.words words letters

end Appends

/-- Words behind a source that is not the last thing in the text. -/
def sourceWords : List String := ["EXCEPT", "INTERSECT", "MINUS", "SET", "UNION", "WHERE"]

/-- Words behind a table of a join: those, or those that go on with the join. -/
def joinedWords : List String :=
  ["ANTI", "CROSS", "FULL", "INNER", "JOIN", "LEFT", "NATURAL", "RIGHT", "SEMI"] ++ sourceWords

/-- Words behind a table: those, or those that a condition of its join starts with. -/
def factorWords : List String := ["ON", "USING"] ++ joinedWords

/-- The alias of a table reads back: a name that stands behind AS, or that no word for what follows
a table is written like. -/
def isLabel (d : Dialect) : Option TableAlias → Bool
  | none => true
  | some ⟨explicit, name, columns⟩ =>
    name.isPlain d && columns.all (Ident.isPlain d) &&
      (explicit || !("AS" :: reservedForTable).contains name.formWord)

/-- A list of names behind another name, if there are any. -/
def listLexemes : List Ident → List Lexeme
  | [] => []
  | columns => columnLexemes columns true

def asLexemes (explicit : Bool) : List Lexeme := if explicit then [⟨.word "AS" none, true⟩] else []

def aliasLexemes : Option TableAlias → List Lexeme
  | none => []
  | some ⟨explicit, name, columns⟩ =>
    asLexemes explicit ++ (identLexemes name true ++ listLexemes columns)

section Aliases

theorem appends_list {columns : List Ident} (plain : ∀ ident ∈ columns, ident.isPlain d = true) :
    Appends d (columnList columns) (listLexemes columns) := by
  cases columns with
  | nil => exact .nil
  | cons column columns =>
    have list := (spells_columns (List.cons_ne_nil column columns) plain).appends
    have text : columnList (column :: columns) =
        " " ++ ("(" ++ commaJoin ((column :: columns).map Ident.render) ++ ")") := by
      have opening : " (" = " " ++ "(" := rfl
      simp only [columnList, List.isEmpty_cons, Bool.false_eq_true, if_false, opening,
        String.append_assoc]
    rw [text]
    exact list

theorem appends_label {label : Option TableAlias} (plain : isLabel d label = true) :
    Appends d (renderLabel label) (aliasLexemes label) := by
  cases label with
  | none => exact .nil
  | some label =>
    obtain ⟨explicit, name, columns⟩ := label
    simp only [isLabel, Bool.and_eq_true, List.all_eq_true] at plain
    obtain ⟨⟨plain, idents⟩, -⟩ := plain
    have named := (spells_ident plain).appends.append (appends_list idents)
    cases explicit with
    | false => simpa [renderLabel, aliasLexemes, asLexemes, String.append_assoc] using named
    | true =>
      have word : Appends d (" " ++ "AS") [⟨.word "AS" none, true⟩] :=
        (spells_letters "AS" (by decide) (by decide)).appends
      have text : renderLabel (some ⟨true, name, columns⟩) =
          " " ++ "AS" ++ (" " ++ name.render ++ columnList columns) := by
        have as : " AS " = " " ++ "AS" ++ " " := rfl
        simp only [renderLabel, if_true, as, String.append_assoc]
      rw [text]
      exact word.append named

theorem parseAlias_stops {words reserved : List String}
    (stops : stopsAt words (next? rest) = true) (among : ∀ word ∈ words, word ∈ reserved)
    (as : "AS" ∉ words) : parseAlias reserved rest = .ok (none, rest) := by
  refine bind_of (eatWord_other (keyword_ne_of_stops stops as)) (bind_of (peek_zero rest) ?_)
  obtain rfl | ⟨text, more, -, spaced, rfl⟩ | ⟨text, spaced, more, rfl, member⟩ :=
    stopsAt_cases stops
  · rfl
  · rfl
  · have listed : reserved.contains (keywordText text) = true := by
      simpa using among _ member
    simp only [next?_cons, Option.isSome_none, Bool.or_false, listed, Bool.not_true,
      Bool.false_eq_true, if_false]
    rfl

/-- A name is taken for the alias behind AS, or where it is no reserved word. -/
theorem parseAlias_name {reserved : List String} {explicit : Bool} {name : Ident}
    (allowed : explicit = true ∨ name.formWord ∉ "AS" :: reserved) (rest : List Lexeme) :
    parseAlias reserved (asLexemes explicit ++ (identLexemes name true ++ rest)) =
      .ok (some name, rest) := by
  obtain ⟨text, quote⟩ := name
  cases explicit with
  | true => rfl
  | false =>
    simp only [Bool.false_eq_true, false_or, List.mem_cons, not_or] at allowed
    have word : keyword? (⟨.word text quote, true⟩ :: rest) ≠ some "AS" :=
      fun same => allowed.1 (Ident.formWord_eq "AS" same)
    refine bind_of (eatWord_other word) (bind_of rfl ?_)
    cases quote with
    | some quote => rfl
    | none =>
      have other : reserved.contains (keywordText text) = false := by
        simpa [Ident.formWord] using allowed.2
      show (if (false || false || !reserved.contains (keywordText text)) = true then do
          skip 1
          return some ⟨text, none⟩
        else return none : Parse (Option Ident)) (⟨.word text none, true⟩ :: rest) = _
      rw [other]
      rfl

theorem isWordAt_as {explicit : Bool} {name : Ident}
    (allowed : explicit = true ∨ name.formWord ≠ "AS") (rest : List Lexeme) :
    isWordAt 0 "AS" (asLexemes explicit ++ (identLexemes name true ++ rest)) =
      .ok (explicit, asLexemes explicit ++ (identLexemes name true ++ rest)) := by
  cases explicit with
  | true => rfl
  | false =>
    have other := allowed.resolve_left Bool.false_ne_true
    have word : keyword? (identLexemes name true ++ rest) ≠ some "AS" :=
      fun same => other (Ident.formWord_eq "AS" same)
    exact isWordAt_other word

theorem next_list {columns : List Ident} (other : next? rest ≠ some (.symbol "(")) :
    (next? (listLexemes columns ++ rest) == some (.symbol "(")) = !columns.isEmpty := by
  cases columns with
  | nil => exact beq_eq_false_iff_ne.mpr other
  | cons column columns => rfl

/-- An alias is read where a table may end. -/
theorem parseTableAlias_takes {label : Option TableAlias} (plain : isLabel d label = true)
    (stops : stopsAt factorWords (next? rest) = true) :
    parseTableAlias (aliasLexemes label ++ rest) = .ok (label, rest) := by
  cases label with
  | none =>
    have among : ∀ word ∈ factorWords, word ∈ reservedForTable := by decide
    exact bind_of (isWordAt_zero "AS" rest)
      (bind_of (parseAlias_stops stops among (by decide)) rfl)
  | some label =>
    obtain ⟨explicit, name, columns⟩ := label
    simp only [isLabel, Bool.and_eq_true, Bool.or_eq_true, Bool.not_eq_true', List.contains_eq_mem,
      decide_eq_false_iff_not] at plain
    have allowed := plain.2
    have unlike : explicit = true ∨ name.formWord ≠ "AS" :=
      allowed.imp_right fun absent same => absent (same ▸ List.mem_cons_self)
    have list : (next? (listLexemes columns ++ rest) == some (.symbol "(")) = !columns.isEmpty :=
      next_list (symbol_ne_of_stops stops (by decide))
    rw [aliasLexemes, List.append_assoc, List.append_assoc]
    refine bind_of (isWordAt_as unlike _) (bind_of (parseAlias_name allowed _) ?_)
    refine bind_of (isAt_zero "(" _) ?_
    rw [list]
    cases columns with
    | nil => rfl
    | cons column columns =>
      exact bind_of (columns_take (List.cons_ne_nil column columns) true rest trivial) rfl

theorem next_alias {label : Option TableAlias} {text : String}
    (stops : stopsAt factorWords (next? rest) = true) (other : text ∉ [")", ","]) :
    next? (aliasLexemes label ++ rest) ≠ some (.symbol text) := by
  cases label with
  | none => exact symbol_ne_of_stops stops other
  | some label =>
    obtain ⟨explicit, name, columns⟩ := label
    cases explicit <;> simp [aliasLexemes, asLexemes, identLexemes]

end Aliases

/-- Words that a table is not named by without quotes. -/
def tableWords : List String := ["LATERAL", "OR", "TABLE", "VALUES"]

def isTableName (d : Dialect) : Name → Bool
  | [] => false
  | first :: parts => (first :: parts).all (Ident.isPlain d) && !tableWords.contains first.formWord

/-- The token that a query starts with. -/
def SetExpr.opening {ν : Type} : SetExpr ν → Token
  | .select _ => .word "SELECT" none
  | .operation _ _ left _ => left.opening
  | _ => .symbol "("

def Query.opening {ν : Type} (q : Query ν) : Token :=
  if q.ctes.isEmpty then q.body.opening else .word "WITH" none

/-- The lexemes start with the token, and no list ends behind it. -/
def OpensWith (token : Token) (ls : Bool → List Lexeme) : Prop :=
  ∀ spaced, ∃ more, ls spaced = ⟨token, spaced⟩ :: more ∧ next? more ≠ some (.symbol ",") ∧
    next? more ≠ some (.symbol ")")

/-- What follows a query, at the end of the text or of a parenthesis. -/
def endsQuery (token : Option Token) : Bool := [none, some (.symbol ")")].contains token

/-- A query reads back in parentheses and at the end of the text. -/
def QueryReads (d : Dialect) (n : Nat) (q : Query) : Prop :=
  ∃ ls, Spells d q.render ls ∧ OpensWith q.opening ls ∧
    Takes (nestedParsers d (n + 1)).query (fun rest => endsQuery (next? rest) = true) ls q

/-- A table or a derived table reads back in front of what may follow it in a join. -/
def FactorReads (d : Dialect) (n : Nat) (factor : TableFactor) : Prop :=
  ∃ ls, Spells d factor.render ls ∧ (∀ spaced rest, keyword? (ls spaced ++ rest) ≠ some "OR") ∧
    ∀ item, Takes (parseFactor (nestedParsers d n) item)
      (fun rest => stopsAt factorWords (next? rest) = true) ls factor

section Factors

theorem isTableName_cons {name : Name} (plain : isTableName d name = true) :
    ∃ first parts, name = first :: parts ∧ (∀ ident ∈ name, ident.isPlain d = true) ∧
      first.formWord ∉ tableWords := by
  cases name with
  | nil => cases plain
  | cons first parts =>
    simp only [isTableName, Bool.and_eq_true, List.all_eq_true, Bool.not_eq_true',
      List.contains_eq_mem, decide_eq_false_iff_not] at plain
    exact ⟨first, parts, rfl, plain.1, plain.2⟩

/-- A name without a word of its own does not start with that word. -/
theorem keyword_of_name {name : Name} (plain : isTableName d name = true) (keyword : String)
    (member : keyword ∈ tableWords) (spaced : Bool) (rest : List Lexeme) :
    keyword? (nameLexemes name spaced ++ rest) ≠ some keyword := by
  obtain ⟨first, parts, rfl, -, absent⟩ := isTableName_cons plain
  intro same
  have word : first.formWord = keyword :=
    Ident.formWord_eq (s := spaced) (r := partLexemes parts ++ rest) keyword same
  exact absent (word ▸ member)

theorem table_factor_reads {name : Name} {label : Option TableAlias}
    (plain : isTableName d name = true) (labelled : isLabel d label = true) :
    FactorReads d n (.table name false [] label) := by
  obtain ⟨first, parts, same, idents, -⟩ := isTableName_cons plain
  have nonempty : name ≠ [] := same ▸ List.cons_ne_nil first parts
  refine ⟨fun spaced => nameLexemes name spaced ++ aliasLexemes label, ?_, ?_, ?_⟩
  · simpa [TableFactor.render] using appends_label labelled (spells_name nonempty idents)
  · intro spaced rest
    rw [List.append_assoc]
    exact keyword_of_name plain "OR" (by decide) spaced _
  · intro item spaced rest stops
    rw [List.append_assoc]
    have lateral := keyword_of_name plain "LATERAL" (by decide) spaced (aliasLexemes label ++ rest)
    have values := keyword_of_name plain "VALUES" (by decide) spaced (aliasLexemes label ++ rest)
    have group : next? (nameLexemes name spaced ++ (aliasLexemes label ++ rest)) ≠
        some (.symbol "(") := by
      simp [same, nameLexemes]
    have table : parseTable (nestedParsers d n)
        (nameLexemes name spaced ++ (aliasLexemes label ++ rest)) =
          .ok (.table name false [] label, rest) := by
      refine bind_of (parseName_takes _ nonempty spaced _ (next_alias stops (by decide))) ?_
      refine bind_of (eat_other (next_alias stops (by decide))) (bind_of rfl ?_)
      exact bind_of (parseTableAlias_takes labelled stops) rfl
    refine bind_of (eatWord_other lateral) (bind_of (eat_other group) ?_)
    refine bind_of (isWordAt_zero "VALUES" _) (bind_of rfl ?_)
    rw [beq_eq_false_iff_ne.mpr values, Bool.and_false, Bool.false_and]
    exact table

theorem derived_factor_reads {lateral : Bool} {q : Query} {label : Option TableAlias}
    (query : QueryReads d n q) (labelled : isLabel d label = true) :
    FactorReads d (n + 1) (.derived lateral q label) := by
  obtain ⟨lq, spells, -, takes⟩ := query
  have derived (rest : List Lexeme) (stops : stopsAt factorWords (next? rest) = true) :
      parseDerived (nestedParsers d (n + 1)) lateral
        (lq false ++ mark ")" :: (aliasLexemes label ++ rest)) =
          .ok (.derived lateral q label, rest) := by
    refine bind_of (takes false _ rfl) (bind_of (expect_here ")" _) ?_)
    exact bind_of (parseTableAlias_takes labelled stops) rfl
  have group := spells.parenthesized
  cases lateral with
  | false =>
    refine ⟨fun spaced => ⟨.symbol "(", spaced⟩ :: (lq false ++ mark ")" :: aliasLexemes label),
      ?_, fun _ _ => by simp, ?_⟩
    · simpa [TableFactor.render, String.append_assoc] using appends_label labelled group
    · intro item spaced rest stops
      rw [List.cons_append, List.append_assoc, List.cons_append]
      refine bind_of (eatWord_other (by simp)) (bind_of (eat_here "(" _) ?_)
      exact bind_of (attempt_some (derived rest stops)) rfl
  | true =>
    refine ⟨fun spaced => ⟨.word "LATERAL" none, spaced⟩ :: ⟨.symbol "(", true⟩ ::
      (lq false ++ mark ")" :: aliasLexemes label), ?_, ?_, ?_⟩
    · have word := spells_letters (d := d) "LATERAL" (by decide) (by decide)
      have text : TableFactor.render (.derived true q label) =
          "LATERAL" ++ " " ++ ("(" ++ q.render ++ ")") ++ renderLabel label := by
        have lateral : "LATERAL " = "LATERAL" ++ " " := rfl
        simp only [TableFactor.render, if_true, lateral, String.append_assoc]
      rw [text]
      simpa using appends_label labelled (word.blank group)
    · exact fun _ _ same => absurd (Option.some.inj same) (by decide)
    · intro item spaced rest stops
      have lateral : keywordText "LATERAL" = "LATERAL" := rfl
      rw [List.cons_append, List.cons_append, List.append_assoc, List.cons_append]
      refine bind_of (eatWord_here lateral _) (bind_of (expect_here "(" _) ?_)
      exact derived rest stops

end Factors

/-- The words of a join. -/
def JoinKind.words : JoinKind → List String
  | .plain => ["JOIN"]
  | .inner => ["INNER", "JOIN"]
  | .left => ["LEFT", "JOIN"]
  | .leftOuter => ["LEFT", "OUTER", "JOIN"]
  | .right => ["RIGHT", "JOIN"]
  | .rightOuter => ["RIGHT", "OUTER", "JOIN"]
  | .full => ["FULL", "JOIN"]
  | .cross => ["CROSS", "JOIN"]
  | .straight => ["STRAIGHT_JOIN"]
  | .leftSemi => ["LEFT", "SEMI", "JOIN"]
  | .rightSemi => ["RIGHT", "SEMI", "JOIN"]
  | .leftAnti => ["LEFT", "ANTI", "JOIN"]
  | .rightAnti => ["RIGHT", "ANTI", "JOIN"]
  | .semi => ["SEMI", "JOIN"]
  | .anti => ["ANTI", "JOIN"]

/-- The join may have a condition. -/
def JoinKind.isConditional : JoinKind → Bool
  | .cross | .straight => false
  | _ => true

/-- The condition of a join reads back: none, an expression behind ON, or the names that both sides
share. -/
inductive ConditionReads (d : Dialect) :
    Nat → JoinKind → Bool → Option Expr → List Name → Prop where
  | bare {n : Nat} {kind : JoinKind} {natural : Bool} : kind.isConditional = true →
      ConditionReads d n kind natural none []
  | cross {n : Nat} : ConditionReads d n .cross false none []
  | on {n : Nat} {kind : JoinKind} {e : Expr} : kind.isConditional = true → StandsAlone d n e →
      ConditionReads d (n + 1) kind false (some e) []
  | shared {n : Nat} {kind : JoinKind} {names : List Name} : kind.isConditional = true →
      names ≠ [] → (∀ name ∈ names, name ≠ [] ∧ ∀ ident ∈ name, ident.isPlain d = true) →
        ConditionReads d n kind false none names

/-- A join reads back in front of what may follow it. -/
def JoinReads (d : Dialect) (n : Nat) (join : Join) : Prop :=
  ∃ l, Appends d join.render l ∧ ∀ item,
    Repeats (parseJoin (nestedParsers d n) (parseFactor (nestedParsers d n) item))
      (fun rest => stopsAt joinedWords (next? rest) = true) l join

section Joins

variable {kind : JoinKind} {natural : Bool} {relation : TableFactor} {condition : Option Expr}
  {shared : List Name} {tokens m : List Lexeme} {g : Nested} {factor : Parse TableFactor}

def naturalWords (natural : Bool) : List String := if natural then ["NATURAL"] else []

theorem spaced_joinWords (kind : JoinKind) (natural : Bool) :
    Sql.spaced (naturalWords natural ++ kind.words) =
      (if natural then " NATURAL " else " ") ++ kind.text := by
  cases natural <;> cases kind <;> decide

theorem eatChoice_join (conditional : kind.isConditional = true) (tokens : List Lexeme) :
    eatChoice joinWords (wordLexemes kind.words ++ tokens) = .ok (some kind, tokens) := by
  cases kind with
  | cross | straight => cases conditional
  | _ => rfl

theorem eatWords_cross (conditional : kind.isConditional = true) (natural : Bool)
    (tokens : List Lexeme) :
    eatWords ["CROSS", "JOIN"] (wordLexemes (naturalWords natural ++ kind.words) ++ tokens) =
      .ok (false, wordLexemes (naturalWords natural ++ kind.words) ++ tokens) := by
  cases natural <;> cases kind with
  | cross | straight => cases conditional
  | _ => rfl

theorem eatWord_natural (conditional : kind.isConditional = true) (natural : Bool)
    (tokens : List Lexeme) :
    eatWord "NATURAL" (wordLexemes (naturalWords natural ++ kind.words) ++ tokens) =
      .ok (natural, wordLexemes kind.words ++ tokens) := by
  cases natural <;> cases kind with
  | cross | straight => cases conditional
  | _ => rfl

theorem parseJoin_conditional (conditional : kind.isConditional = true)
    (left : factor tokens = .ok (relation, m))
    (behind : parseCondition g m = .ok ((condition, shared), rest)) :
    parseJoin g factor (wordLexemes kind.words ++ tokens) =
      .ok (some ⟨kind, false, relation, condition, shared⟩, rest) := by
  refine bind_of (eatWords_cross conditional false tokens) ?_
  refine bind_of (eatWord_natural conditional false tokens) ?_
  refine bind_of (eatChoice_join conditional tokens) (bind_of left ?_)
  exact bind_of behind rfl

theorem parseJoin_natural (conditional : kind.isConditional = true)
    (left : factor tokens = .ok (relation, rest)) :
    parseJoin g factor (wordLexemes ("NATURAL" :: kind.words) ++ tokens) =
      .ok (some ⟨kind, true, relation, none, []⟩, rest) := by
  refine bind_of (eatWords_cross conditional true tokens) ?_
  refine bind_of (eatWord_natural conditional true tokens) ?_
  exact bind_of (eatChoice_join conditional tokens) (bind_of left rfl)

theorem parseJoin_cross (left : factor tokens = .ok (relation, rest)) :
    parseJoin g factor (wordLexemes ["CROSS", "JOIN"] ++ tokens) =
      .ok (some ⟨.cross, false, relation, none, []⟩, rest) :=
  bind_of rfl (bind_of left rfl)

theorem parseCondition_none (stops : stopsAt joinedWords (next? rest) = true) :
    parseCondition g rest = .ok ((none, []), rest) :=
  bind_of (eatWord_other (keyword_ne_of_stops stops (by decide)))
    (bind_of (eatWord_other (keyword_ne_of_stops stops (by decide))) rfl)

/-- A join reads back if its words are read in front of its table and `l` behind it. -/
theorem join_reads_of {text : String} {l : List Lexeme} (words : kind ≠ .straight)
    (table : FactorReads d n relation)
    (render : Join.render ⟨kind, natural, relation, condition, shared⟩ =
      (if natural then " NATURAL " else " ") ++ kind.text ++ " " ++ relation.render ++ text)
    (appends : Appends d text l)
    (behind : ∀ rest, stopsAt joinedWords (next? rest) = true →
      stopsAt factorWords (next? (l ++ rest)) = true)
    (parsed : ∀ factor tokens rest, stopsAt joinedWords (next? rest) = true →
      factor tokens = .ok (relation, l ++ rest) →
        parseJoin (nestedParsers d n) factor
          (wordLexemes (naturalWords natural ++ kind.words) ++ tokens) =
            .ok (some ⟨kind, natural, relation, condition, shared⟩, rest)) :
    JoinReads d n ⟨kind, natural, relation, condition, shared⟩ := by
  obtain ⟨lf, spells, -, takes⟩ := table
  have letters : ∀ word ∈ naturalWords natural ++ kind.words, isKeywordText word = true := by
    cases kind with
    | straight => exact absurd rfl words
    | _ => cases natural <;> decide
  have front := (appends_words (d := d) _ letters).append spells.appends
  refine ⟨wordLexemes (naturalWords natural ++ kind.words) ++ (lf true ++ l), ?_, ?_⟩
  · have all := front.append appends
    rw [spaced_joinWords] at all
    rw [render]
    simpa only [String.append_assoc, List.append_assoc] using all
  · refine fun item => ⟨?_, fun rest => ?_, fun rest stops => ?_⟩
    · cases natural <;> cases kind <;> exact List.cons_ne_nil _ _
    · cases kind with
      | straight => exact absurd rfl words
      | _ => cases natural <;> rfl
    · rw [List.append_assoc, List.append_assoc]
      exact parsed _ _ rest stops (takes item true _ (behind rest stops))

theorem stops_factor (stops : stopsAt joinedWords (next? rest) = true) :
    stopsAt factorWords (next? rest) = true :=
  stopsAt_mono stops fun _ member => List.mem_append_right _ member

theorem names_read {names : List Name} (nonempty : names ≠ [])
    (plain : ∀ name ∈ names, name ≠ [] ∧ ∀ ident ∈ name, ident.isPlain d = true) :
    ReadsBack d (commaJoin (names.map Name.render)) (commaList parseName)
      (fun rest => next? rest ≠ some (.symbol ".") ∧ next? rest ≠ some (.symbol ",")) names := by
  refine commaList_readsBack (fun rest => by simp [mark]) nonempty fun name member => ?_
  obtain ⟨parts, idents⟩ := plain name member
  exact ⟨nameLexemes name, spells_name parts idents, parseName_takes name parts⟩

/-- A join with its table and its condition. -/
theorem join_reads (table : FactorReads d n relation)
    (reads : ConditionReads d n kind natural condition shared) :
    JoinReads d n ⟨kind, natural, relation, condition, shared⟩ := by
  cases reads with
  | cross =>
    refine join_reads_of (by decide) table (by simp [Join.render]) .nil
      (fun rest => stops_factor) fun factor tokens rest _ left => parseJoin_cross left
  | bare conditional =>
    have words : kind ≠ .straight := by
      rintro rfl
      cases conditional
    refine join_reads_of words table (by simp [Join.render]) .nil (fun rest => stops_factor) ?_
    intro factor tokens rest stops left
    cases natural with
    | true => exact parseJoin_natural conditional left
    | false => exact parseJoin_conditional conditional left (parseCondition_none stops)
  | @on m _ e conditional alone =>
    have words : kind ≠ .straight := by
      rintro rfl
      cases conditional
    obtain ⟨le, spells, takes⟩ := alone.readsBack
    have word := (spells_letters (d := d) "ON" (by decide) (by decide)).appends
    refine join_reads_of words table ?_ (word.append spells.appends) (fun rest _ => rfl) ?_
    · have on : " ON " = " " ++ "ON" ++ " " := rfl
      simp only [Join.render, Bool.false_eq_true, if_false, List.isEmpty_nil, if_true, on,
        String.append_assoc, String.append_empty]
    · intro factor tokens rest stops left
      have here : keywordText "ON" = "ON" := rfl
      have ends : Ends d 0 rest := ends_of_stops stops (by decide) d 0
      refine parseJoin_conditional conditional left (bind_of (eatWord_here here _) ?_)
      exact bind_of (takes true rest ends) rfl
  | shared conditional nonempty plain =>
    have words : kind ≠ .straight := by
      rintro rfl
      cases conditional
    obtain ⟨ln, spells, takes⟩ := names_read nonempty plain
    have word := spells_letters (d := d) "USING" (by decide) (by decide)
    have list := (word.parenthesis spells).appends
    refine join_reads_of words table ?_ list (fun rest _ => rfl) ?_
    · have opening : " USING(" = " " ++ ("USING" ++ "(") := rfl
      have listed : shared.isEmpty = false := by simpa using nonempty
      simp only [Join.render, Bool.false_eq_true, if_false, listed, opening, String.append_assoc,
        String.append_empty]
    · intro factor tokens rest stops left
      have here : keywordText "USING" = "USING" := rfl
      have group := parenthesized_takes takes (fun rest => by simp [mark]) false rest trivial
      refine parseJoin_conditional conditional left ?_
      refine bind_of (eatWord_other (by simp [keyword?, Token.keyword?, here])) ?_
      exact bind_of (eatWord_here here _) (bind_of group rfl)

end Joins

/-- What follows a source that no alias and no join goes on with. -/
def endsSource (token : Option Token) : Bool :=
  [none, some (.symbol ","), some (.word "SET" none), some (.word "WHERE" none)].contains token

/-- A table with its joins reads back where a statement names what it reads or writes. -/
def SourceReads (d : Dialect) (n : Nat) (ends : Option Token → Bool) (item : FromItem) : Prop :=
  ∃ ls, Spells d item.render ls ∧ (∀ spaced rest, keyword? (ls spaced ++ rest) ≠ some "OR") ∧
    Takes (parseFromItem (nestedParsers d n)) (fun rest => ends (next? rest) = true) ls item

section Sources

theorem stops_of_endsSource {token : Option Token} (ends : endsSource token = true) :
    stopsAt sourceWords token = true := by
  obtain rfl | rfl | rfl | rfl : token = none ∨ token = some (.symbol ",") ∨
      token = some (.word "SET" none) ∨ token = some (.word "WHERE" none) := by
    simpa [endsSource] using ends
  all_goals rfl

theorem SourceReads.mono {ends ends' : Option Token → Bool} {item : FromItem}
    (reads : SourceReads d n ends item) (among : ∀ token, ends' token = true → ends token = true) :
    SourceReads d n ends' item := by
  obtain ⟨ls, spells, other, takes⟩ := reads
  exact ⟨ls, spells, other, fun spaced rest stops => takes spaced rest (among _ stops)⟩

theorem parseJoin_stops {g : Nested} {factor : Parse TableFactor}
    (stops : stopsAt sourceWords (next? rest) = true) :
    parseJoin g factor rest = .ok (none, rest) := by
  have choices : ∀ choice ∈ joinWords, ∃ keyword more, choice.1 = keyword :: more ∧
      keyword? rest ≠ some keyword := by
    have heads : ∀ choice ∈ joinWords,
        choice.1.head?.any (fun keyword => !sourceWords.contains keyword) = true := by
      decide
    intro choice member
    have head := heads choice member
    cases words : choice.1 with
    | nil => simp [words] at head
    | cons keyword more =>
      exact ⟨keyword, more, rfl, keyword_ne_of_stops stops (by simpa [words] using head)⟩
  have apart : ∀ keyword ∈ sourceWords, keyword ∉ joinStarts := by decide
  have starts : ∀ keyword ∈ keyword? rest, keyword ∉ joinStarts := fun keyword same =>
    apart keyword (keyword_of_stops stops keyword same)
  refine bind_of (eatWords_other (keyword_ne_of_stops stops (by decide))) ?_
  refine bind_of (eatWord_other (keyword_ne_of_stops stops (by decide))) ?_
  exact bind_of (eatChoice_other choices) (bind_of (isOneOfAt_other starts) rfl)

theorem exists_joins_lexing {joins : List Join} (each : ∀ join ∈ joins, JoinReads d n join) :
    ∃ ls : List (List Lexeme), Appends d (renderJoins joins) ls.flatten ∧
      ∀ item, List.Forall₂ (Repeats (parseJoin (nestedParsers d n)
        (parseFactor (nestedParsers d n) item))
        fun rest => stopsAt joinedWords (next? rest) = true) ls joins := by
  induction joins with
  | nil => exact ⟨[], .nil, fun _ => .nil⟩
  | cons join joins ih =>
    rw [List.forall_mem_cons] at each
    obtain ⟨l, appends, repeats⟩ := each.1
    obtain ⟨ls, appendsAll, repeatsAll⟩ := ih each.2
    refine ⟨l :: ls, ?_, fun item => .cons (repeats item) (repeatsAll item)⟩
    rw [renderJoins, List.flatten_cons]
    exact appends.append appendsAll

/-- A table with the joins behind it. -/
theorem source_reads {relation : TableFactor} {joins : List Join}
    (table : FactorReads d n relation) (each : ∀ join ∈ joins, JoinReads d n join) :
    SourceReads d n (stopsAt sourceWords) ⟨relation, joins⟩ := by
  obtain ⟨lf, spells, other, takes⟩ := table
  obtain ⟨ls, appends, repeats⟩ := exists_joins_lexing each
  refine ⟨fun spaced => lf spaced ++ ls.flatten, ?_, ?_, ?_⟩
  · rw [FromItem.render]
    exact appends spells
  · intro spaced rest
    rw [List.append_assoc]
    exact other spaced _
  · intro spaced rest stops
    have joined : stopsAt joinedWords (next? rest) = true :=
      stopsAt_mono stops fun _ member => List.mem_append_right _ member
    rw [List.append_assoc]
    refine bind_of rfl ?_
    -- What the joins start with does not depend on how their tables are read.
    have behind := repeats_opens (repeats fail) joined
    refine bind_of (takes _ spaced _ (stops_factor behind)) ?_
    exact bind_of (repeated_takes (repeats _) joined (parseJoin_stops stops)) rfl

theorem SourceReads.at_end {item : FromItem} (reads : SourceReads d n (stopsAt sourceWords) item) :
    SourceReads d n endsSource item :=
  reads.mono fun _ => stops_of_endsSource

theorem table_reads {name : Name} (plain : isTableName d name = true) :
    SourceReads d n endsSource ⟨.table name false [] none, []⟩ :=
  have each : ∀ join ∈ [], JoinReads d n join := fun _ member => absurd member List.not_mem_nil
  (source_reads (table_factor_reads plain rfl) each).at_end

theorem renderSources_eq_map (items : List FromItem) :
    renderSources items = items.map FromItem.render := by
  induction items with
  | nil => rfl
  | cons item items ih => rw [renderSources, ih, List.map_cons]

theorem sources_read {ends : Option Token → Bool} {sources : List FromItem}
    (comma : ends (some (.symbol ",")) = true) (nonempty : sources ≠ [])
    (each : ∀ item ∈ sources, SourceReads d n ends item) :
    ReadsBack d (commaJoin (sources.map FromItem.render)) (parseSources (nestedParsers d n))
      (fun rest => ends (next? rest) = true ∧ next? rest ≠ some (.symbol ",")) sources := by
  refine commaList_readsBack (fun rest => comma) nonempty fun item member => ?_
  obtain ⟨ls, spells, -, takes⟩ := each item member
  exact ⟨ls, spells, takes⟩

end Sources

end SealedColumns.Sql

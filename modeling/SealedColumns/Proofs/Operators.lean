import SealedColumns.Proofs.Operands

/-!
Expressions read back as long as their operators bind as the tree has them: an expression is told
by how tightly what stands in front of it and what follows it may bind. The parser goes on from
what it has read on the left, which is the invariant of its loop here.
-/
namespace SealedColumns.Sql

open SealedColumns.Text Parse Lexer

/-- Operators whose text is looked up alike in all dialects. -/
def BinaryOp.isPlain : BinaryOp → Bool
  | .other _ => false
  | _ => true

def BinaryOp.token : BinaryOp → Token
  | .or => .word "OR" none
  | .and => .word "AND" none
  | .xor => .word "XOR" none
  | op => .symbol op.text

def BinaryOp.level (p : Precedence) : BinaryOp → Nat
  | .or => p.or
  | .and => p.and
  | .xor => p.xor
  | .equal | .notEqual | .less | .lessEqual | .greater | .greaterEqual => p.equal
  | .plus | .minus => p.sum
  | .times | .divide | .modulo => p.product
  | .concat => p.concat
  | .other _ => 0

theorem peekInfix_operator {op : BinaryOp} (plain : op.isPlain = true) (p : Precedence)
    (spaced : Bool) (rest : List Lexeme) :
    peekInfix p (⟨op.token, spaced⟩ :: rest) =
      .ok (some (op.level p, .binary op), ⟨op.token, spaced⟩ :: rest) := by
  cases op with
  | other text => cases plain
  | _ => rfl

theorem isQuiet_operator {op : BinaryOp} (plain : op.isPlain = true) :
    isQuiet (some op.token) = true := by
  cases op with
  | other text => cases plain
  | _ => decide

theorem next_operator {op : BinaryOp} (plain : op.isPlain = true) {spaced : Bool}
    {rest : List Lexeme} :
    next? (⟨op.token, spaced⟩ :: rest) ≠ some (.symbol ",") ∧
      next? (⟨op.token, spaced⟩ :: rest) ≠ some (.symbol ")") := by
  have apart : ∀ text ∈ [",", ")"], op.token ≠ .symbol text := by
    cases op with
    | other text => cases plain
    | _ => decide
  constructor <;> exact fun same => apart _ (by decide) (Option.some.inj same)

theorem spells_binaryOp {op : BinaryOp} (plain : op.isPlain = true) (d : Dialect) :
    Spells d op.text fun spaced => [⟨op.token, spaced⟩] := by
  cases op with
  | other text => cases plain
  | or | and | xor => exact spells_letters _ (by decide) (by decide)
  | _ => exact spells_operator (by decide)

/-- No operator that is next binds tighter than `level`. -/
abbrev Loose (d : Dialect) (level : Nat) (rest : List Lexeme) : Prop :=
  ∃ found, peekInfix (precedence d) rest = .ok (found, rest) ∧ ∀ o ∈ found, o.1 ≤ level

/-- What follows ends an expression whose operators bind no looser than `level`. -/
def Ends (d : Dialect) (level : Nat) (rest : List Lexeme) : Prop :=
  isQuiet (next? rest) = true ∧ Loose d level rest

theorem Ends.mono {d : Dialect} {low high : Nat} (ends : Ends d low rest) (le : low ≤ high) :
    Ends d high rest := by
  obtain ⟨quiet, found, peeked, bound⟩ := ends
  exact ⟨quiet, found, peeked, fun o member => Nat.le_trans (bound o member) le⟩

theorem ends_nil (d : Dialect) (level : Nat) : Ends d level [] :=
  ⟨rfl, none, rfl, by simp⟩

theorem ends_mark {text : String} (member : text ∈ [")", ","]) (d : Dialect) (level : Nat)
    (rest : List Lexeme) : Ends d level (mark text :: rest) := by
  simp only [List.mem_cons, List.not_mem_nil, or_false] at member
  rcases member with rfl | rfl
  · exact ⟨rfl, none, rfl, by simp⟩
  · exact ⟨rfl, none, rfl, by simp⟩

section Builds

variable (d : Dialect) (n : Nat)

/-- Parsing goes through the lexemes to the expression, and on from there, at every level below
`ceiling` and where nothing follows that would go on with an operand of an operator tighter than
`floor`. -/
def Builds (ls : Bool → List Lexeme) (e : Expr) (floor ceiling : Nat) : Prop :=
  ∀ ⦃spaced rest level result⦄, level < ceiling → Ends d floor rest →
    (∀ fuel, rest.length ≤ fuel →
      iterate (parseInfixes (nestedParsers d n) level) fuel e rest = result) →
    parseExprAbove (nestedParsers d n) level (ls spaced ++ rest) = result

/-- The expression reads back, and also behind NOT if it is `negatable`. -/
def ReadsAs (negatable : Bool) (e : Expr) (floor ceiling : Nat) : Prop :=
  ∃ ls, Spells d e.render ls ∧ Starts ls ∧ (negatable = true → Negates ls) ∧
    Builds d n ls e floor ceiling

abbrev ExprReads (e : Expr) (floor ceiling : Nat) : Prop := ReadsAs d n false e floor ceiling

end Builds

section Infixes

variable {d : Dialect} {n : Nat} {e e' : Expr} {ls : Bool → List Lexeme} {floor ceiling : Nat}
  {negatable : Bool}

theorem ReadsAs.expr (reads : ReadsAs d n negatable e floor ceiling) :
    ExprReads d n e floor ceiling := by
  obtain ⟨ls, spells, starts, -, builds⟩ := reads
  exact ⟨ls, spells, starts, nofun, builds⟩

theorem parseInfixes_stops {g : Nested} {level : Nat} (ends : Ends g.dialect level rest) :
    parseInfixes g level e rest = .ok (none, rest) := by
  obtain ⟨-, found, peeked, bound⟩ := ends
  refine bind_of peeked ?_
  cases found with
  | none => rfl
  | some o =>
    have loose := bound o rfl
    simp only
    rw [if_neg (Nat.not_lt.mpr loose)]
    rfl

theorem iterate_stops {g : Nested} {level : Nat} (ends : Ends g.dialect level rest) (fuel : Nat) :
    iterate (parseInfixes g level) fuel e rest = .ok (e, rest) := by
  cases fuel with
  | zero => exact bind_of (parseInfixes_stops ends) rfl
  | succ fuel => exact bind_of (parseInfixes_stops ends) rfl

theorem Builds.reads (builds : Builds d n ls e floor ceiling) {level : Nat}
    (below : level < ceiling) (endsFloor : Ends d floor rest) (ends : Ends d level rest)
    (spaced : Bool) :
    parseExprAbove (nestedParsers d n) level (ls spaced ++ rest) = .ok (e, rest) :=
  builds below endsFloor fun fuel _ =>
    iterate_stops (by rw [dialect_nestedParsers]; exact ends) fuel

theorem builds_operand
    (takes : Takes (parseDotted (nestedParsers d n)) (fun rest => isQuiet (next? rest) = true) ls e)
    (floor ceiling : Nat) : Builds d n ls e floor ceiling := by
  intro spaced rest level result _ ends goes
  exact bind_of (takes spaced rest ends.1) (bind_of rfl (goes rest.length (Nat.le_refl _)))

theorem OperandReads.readsAs (reads : OperandReads d n e) (negatable : Bool)
    (floor ceiling : Nat) : ReadsAs d n negatable e floor ceiling := by
  obtain ⟨ls, spells, starts, negates, takes⟩ := reads
  exact ⟨ls, spells, starts, fun _ => negates, builds_operand takes floor ceiling⟩

/-- One more operator behind an expression. -/
theorem Builds.extend (base : Builds d n ls e floor ceiling) {tail : List Lexeme}
    (nonempty : tail ≠ []) {level floor' : Nat}
    (ends : ∀ rest, Ends d floor' rest → Ends d floor (tail ++ rest))
    (step : ∀ below rest, below < level → Ends d floor' rest →
      parseInfixes (nestedParsers d n) below e (tail ++ rest) = .ok (some e', rest)) :
    Builds d n (fun spaced => ls spaced ++ tail) e' floor' (min level ceiling) := by
  intro spaced rest below result under endsRest goes
  rw [List.append_assoc]
  refine base (Nat.lt_of_lt_of_le under (Nat.min_le_right _ _)) (ends rest endsRest) ?_
  intro fuel enough
  have length := List.length_pos_iff.mpr nonempty
  rw [List.length_append] at enough
  cases fuel with
  | zero => omega
  | succ fuel =>
    refine bind_of (step below rest (Nat.lt_of_lt_of_le under (Nat.min_le_left _ _)) endsRest) ?_
    exact goes fuel (by omega)

theorem Starts.append (starts : Starts ls) {tail : List Lexeme}
    (other : next? tail ≠ some (.symbol ",") ∧ next? tail ≠ some (.symbol ")")) :
    Starts fun spaced => ls spaced ++ tail := by
  intro spaced
  obtain ⟨token, more, split, opener, comma, close⟩ := starts spaced
  refine ⟨token, more ++ tail, by simp only [split, List.cons_append], opener, ?_, ?_⟩
  · cases more with
    | nil => exact other.1
    | cons lexeme more => exact comma
  · cases more with
    | nil => exact other.2
    | cons lexeme more => exact close

theorem keyword_of_opener {token : Token} {spaced : Bool} (opener : isOpener token = true) :
    ∀ keyword ∈ keyword? (⟨token, spaced⟩ :: rest), keyword ∉ notOpeners := by
  intro keyword same member
  have known : token.keyword? = some keyword := same
  simp [isOpener, known, member] at opener

theorem Starts.keyword (starts : Starts ls) (keywords : List String)
    (among : ∀ keyword ∈ keywords, keyword ∈ notOpeners) (spaced : Bool) (rest : List Lexeme) :
    ∀ keyword ∈ keyword? (ls spaced ++ rest), keyword ∉ keywords := by
  obtain ⟨token, more, split, opener, -⟩ := starts spaced
  intro keyword same member
  rw [split] at same
  exact keyword_of_opener opener keyword same (among keyword member)

/-- Behind an expression stands an operator with what belongs to it, and they are read together. -/
structure Continues (d : Dialect) (n : Nat) (e e' : Expr) (tail : List Lexeme)
    (floor floor' level : Nat) : Prop where
  spells : ∀ {ls : Bool → List Lexeme}, Spells d e.render ls →
    Spells d e'.render fun spaced => ls spaced ++ tail
  nonempty : tail ≠ []
  quiet : isQuiet (next? tail) = true
  inside : next? tail ≠ some (.symbol ",") ∧ next? tail ≠ some (.symbol ")")
  ends : ∀ rest, Ends d floor' rest → Ends d floor (tail ++ rest)
  step : ∀ below rest, below < level → Ends d floor' rest →
    parseInfixes (nestedParsers d n) below e (tail ++ rest) = .ok (some e', rest)

theorem Negates.append (negates : Negates ls) {tail : List Lexeme} (nonempty : tail ≠ [])
    (quiet : isQuiet (next? tail) = true) : Negates fun spaced => ls spaced ++ tail := by
  obtain ⟨lexeme, more, rfl⟩ := List.exists_cons_of_ne_nil nonempty
  refine ⟨fun rest => ?_, fun g spaced rest _ => ?_⟩ <;> rw [List.append_assoc]
  · exact negates.word _
  · exact negates.untyped g spaced _ quiet

theorem ReadsAs.continue (reads : ReadsAs d n negatable e floor ceiling) {tail : List Lexeme}
    {floor' level : Nat} (continues : Continues d n e e' tail floor floor' level) :
    ReadsAs d n negatable e' floor' (min level ceiling) := by
  obtain ⟨ls, spells, starts, negates, builds⟩ := reads
  exact ⟨_, continues.spells spells, starts.append continues.inside,
    fun negated => (negates negated).append continues.nonempty continues.quiet,
    builds.extend continues.nonempty continues.ends continues.step⟩

/-- An operator with its right side. -/
theorem ExprReads.behind_operator {l r : Expr} {op : BinaryOp} {floorL floorR ceilingR : Nat}
    (right : ExprReads d n r floorR ceilingR) (plain : op.isPlain = true)
    (loose : op.level (precedence d) ≤ floorL) (tight : op.level (precedence d) < ceilingR) :
    ∃ tail, Continues d (n + 1) l (.binary l op r) tail floorL
      (min (op.level (precedence d)) floorR) (op.level (precedence d)) := by
  obtain ⟨lr, spellsR, startsR, -, buildsR⟩ := right
  refine ⟨⟨op.token, true⟩ :: lr true, ?_, List.cons_ne_nil _ _, isQuiet_operator plain,
    next_operator plain, ?_, ?_⟩
  · intro ll spellsL
    simpa [Expr.render] using (spellsL.blank (spells_binaryOp plain d)).blank spellsR
  · exact fun rest _ => ⟨isQuiet_operator plain, _, peekInfix_operator plain _ _ _,
      by simpa using loose⟩
  · intro below rest under ends
    have word := startsR.keyword ["ANY", "ALL", "SOME"] (by decide) true rest
    have read := buildsR.reads tight (ends.mono (Nat.min_le_right _ _))
      (ends.mono (Nat.min_le_left _ _)) true
    refine bind_of (peekInfix_operator plain _ true (lr true ++ rest)) ?_
    rw [dialect_nestedParsers]
    simp only [if_pos under]
    refine bind_of (bind_of (a := ()) (m := lr true ++ rest) rfl ?_) rfl
    exact bind_of (eatOneOf_other word) (bind_of read rfl)

/-- Keywords with a blank in front of each. -/
def wordLexemes (words : List String) : List Lexeme := words.map fun word => ⟨.word word none, true⟩

def isKeywordText (word : String) : Bool := word.toList != [] && word.toList.all Char.isAlpha

theorem Spells.words {text : String} (spells : Spells d text ls) (words : List String)
    (letters : ∀ word ∈ words, isKeywordText word = true) :
    Spells d (text ++ Sql.spaced words) fun s => ls s ++ wordLexemes words := by
  induction words generalizing text ls with
  | nil => simpa [Sql.spaced, wordLexemes] using spells
  | cons word words ih =>
    rw [List.forall_mem_cons] at letters
    obtain ⟨letter, letters⟩ := letters
    simp only [isKeywordText, Bool.and_eq_true, bne_iff_ne] at letter
    have all := ih (spells.blank (spells_letters word letter.1 letter.2)) letters
    have text : Sql.spaced (word :: words) = " " ++ word ++ Sql.spaced words := by
      simp [Sql.spaced]
    simpa [text, wordLexemes, String.append_assoc] using all

theorem wordLexemes_inside {words : List String} (nonempty : words ≠ []) (tail : List Lexeme) :
    next? (wordLexemes words ++ tail) ≠ some (.symbol ",") ∧
      next? (wordLexemes words ++ tail) ≠ some (.symbol ")") := by
  obtain ⟨word, words, rfl⟩ := List.exists_cons_of_ne_nil nonempty
  exact ⟨by simp [wordLexemes], by simp [wordLexemes]⟩

def notWords (negated : Bool) : List String := if negated then ["NOT"] else []

/-- IS NULL and IS NOT NULL. -/
theorem continues_isNull (negated : Bool) (loose : (precedence d).is ≤ floor) (floor' : Nat) :
    Continues d n e (.isNull negated e) (wordLexemes ("IS" :: (notWords negated ++ ["NULL"])))
      floor floor' (precedence d).is := by
  refine ⟨fun {ls} spells => ?_, List.cons_ne_nil _ _, rfl, ?_, ?_, ?_⟩
  · have text : e.render ++ Sql.spaced ("IS" :: (notWords negated ++ ["NULL"])) =
        Expr.render (.isNull negated e) := by
      cases negated <;> simp [Expr.render, String.append_assoc] <;> rfl
    exact text ▸ spells.words _ (by cases negated <;> decide)
  · simpa using wordLexemes_inside (List.cons_ne_nil "IS" (notWords negated ++ ["NULL"])) []
  · exact fun rest _ => ⟨rfl, _, rfl, by simpa using loose⟩
  · intro below rest under ends
    rw [parseInfixes, dialect_nestedParsers]
    refine bind_of (a := some ((precedence d).is, .is)) (m := _) rfl ?_
    simp only [if_pos under]
    cases negated <;> rfl

theorem isOpener_apart {token : Token} (opener : isOpener token = true) :
    some token ≠ some (.symbol ",") ∧ some token ≠ some (.symbol ")") := by
  simp only [isOpener, Bool.and_eq_true, bne_iff_ne] at opener
  exact ⟨fun same => opener.1.2 (Option.some.inj same),
    fun same => opener.1.1 (Option.some.inj same)⟩

def groupLexemes (ls : Bool → List Lexeme) (spaced : Bool) : List Lexeme :=
  ⟨.symbol "(", spaced⟩ :: (ls false ++ [mark ")"])

theorem Starts.group (starts : Starts ls) : Starts (groupLexemes ls) := by
  intro spaced
  obtain ⟨token, more, split, opener, -⟩ := starts false
  refine ⟨_, _, rfl, by decide, ?_, ?_⟩ <;> simp only [split, List.cons_append, next?_cons]
  · exact (isOpener_apart opener).1
  · exact (isOpener_apart opener).2

theorem Builds.group (builds : Builds d n ls e floor ceiling) (starts : Starts ls)
    (positive : 0 < ceiling) :
    Takes (parseDotted (nestedParsers d (n + 1))) (fun rest => isQuiet (next? rest) = true)
      (groupLexemes ls) (.nested e) := by
  intro spaced rest quiet
  have inner : parseExpr (nestedParsers d (n + 1)) (ls false ++ mark ")" :: rest) =
      .ok (e, mark ")" :: rest) :=
    builds.reads positive (ends_mark (by decide) d floor rest) (ends_mark (by decide) d 0 rest) _
  have query := starts.keyword ["SELECT", "WITH"] (by decide) false (mark ")" :: rest)
  have group : parseGroup (nestedParsers d (n + 1)) (ls false ++ mark ")" :: rest) =
      .ok (.nested e, rest) := by
    refine bind_of (isOneOfAt_other query) ?_
    refine bind_of (a := [e]) (m := mark ")" :: rest) ?_ (bind_of (expect_here ")" _) rfl)
    refine bind_of inner (bind_of rfl (bind_of (a := []) (m := mark ")" :: rest) ?_ rfl))
    exact bind_of (eat_other (by simp [mark])) rfl
  refine parseDotted_alone ?_ quiet
  rw [groupLexemes, List.cons_append, List.append_assoc]
  refine bind_of (peek_zero _) ?_
  simp only [next?_cons]
  refine bind_of (a := ()) (m := ls false ++ mark ")" :: rest) rfl (bind_of group ?_)
  exact bind_of (eatWord_other (keyword_of_quiet quiet (by decide))) rfl

def PatternKind.words : PatternKind → List String
  | .like => ["LIKE"]
  | .caseless => ["ILIKE"]
  | .similar => ["SIMILAR", "TO"]

theorem peekInfix_pattern (p : Precedence) (kind : PatternKind) (negated : Bool)
    (rest : List Lexeme) :
    peekInfix p (wordLexemes (notWords negated ++ kind.words) ++ rest) =
      .ok (some (p.like, .list), wordLexemes (notWords negated ++ kind.words) ++ rest) := by
  cases negated <;> cases kind <;> rfl

theorem parseListInfix_pattern {g : Nested} (kind : PatternKind) (negated : Bool)
    (tokens : List Lexeme) :
    parseListInfix g e (wordLexemes (notWords negated ++ kind.words) ++ tokens) =
      parsePattern g kind negated e tokens := by
  cases negated <;> cases kind <;> rfl

theorem parseModifier_takes (lexeme : Lexeme) (tokens : List Lexeme) :
    parseModifier (lexeme :: tokens) = .error .unexpected ∨
      ∃ text, parseModifier (lexeme :: tokens) = .ok (text, tokens) := by
  obtain ⟨token, spaced⟩ := lexeme
  cases token with
  | word text _ | number text _ | string text => exact .inr ⟨_, rfl⟩
  | _ => exact .inl rfl

/-- What stands in a parenthesis behind a word is no size of a type, or nothing but that. -/
theorem parseCustomType_group {text : String} {spaced quoted : Bool} {token : Token}
    {more : List Lexeme} (comma : next? more ≠ some (.symbol ","))
    (close : next? more ≠ some (.symbol ")")) (rest : List Lexeme) :
    let tokens := ⟨.word text none, spaced⟩ :: ⟨.symbol "(", quoted⟩ :: ⟨token, false⟩ ::
      (more ++ mark ")" :: rest)
    parseCustomType tokens = .error .unexpected ∨
      ∃ type, parseCustomType tokens = .ok (.custom type, rest) := by
  intro tokens
  have name : parseName tokens =
      .ok ([.bare text], ⟨.symbol "(", quoted⟩ :: ⟨token, false⟩ :: (more ++ mark ")" :: rest)) :=
    parseName_takes [.bare text] (List.cons_ne_nil _ _) spaced _ (by simp)
  have open' : isAt 0 "(" (⟨.symbol "(", quoted⟩ :: ⟨token, false⟩ :: (more ++ mark ")" :: rest)) =
      .ok (true, ⟨.symbol "(", quoted⟩ :: ⟨token, false⟩ :: (more ++ mark ")" :: rest)) := by
    rw [isAt_zero]
    simp
  rcases parseModifier_takes ⟨token, false⟩ (more ++ mark ")" :: rest) with fails | ⟨first, takes⟩
  · refine .inl (bind_of name (bind_of open' ?_))
    exact bind_fails (bind_of (expect_here "(" _) (bind_fails (bind_fails fails)))
  · have stops : next? (more ++ mark ")" :: rest) ≠ some (.symbol ",") := by
      cases more with
      | nil => simp [mark]
      | cons lexeme more => exact comma
    have modifiers : commaList parseModifier (⟨token, false⟩ :: (more ++ mark ")" :: rest)) =
        .ok ([first], more ++ mark ")" :: rest) := by
      refine bind_of takes (bind_of rfl (bind_of (a := []) ?_ rfl))
      rw [List.length_append, List.length_cons, Nat.add_succ]
      exact bind_of (eat_other stops) rfl
    cases more with
    | nil =>
      refine .inr ⟨Name.render [.bare text] ++ "(" ++ commaJoin [first] ++ ")",
        bind_of name (bind_of open' ?_)⟩
      exact bind_of (bind_of (expect_here "(" _) (bind_of modifiers
        (bind_of (expect_here ")" rest) rfl))) rfl
    | cons lexeme more =>
      refine .inl (bind_of name (bind_of open' (bind_fails ?_)))
      exact bind_of (expect_here "(" _) (bind_of modifiers (bind_fails (expect_fails close)))

/-- A word with a parenthesis behind it is no type of a literal, if no type is listed under it. -/
theorem parseTyped_group {text : String} {spaced quoted : Bool} {token : Token}
    {more : List Lexeme} (g : Nested)
    (unlisted : keywordText text ≠ "INTERVAL" ∧ isListedType (keywordText text) = false)
    (comma : next? more ≠ some (.symbol ",")) (close : next? more ≠ some (.symbol ")"))
    (quiet : isQuiet (next? rest) = true) :
    parseTyped g (⟨.word text none, spaced⟩ :: ⟨.symbol "(", quoted⟩ :: ⟨token, false⟩ ::
      (more ++ mark ")" :: rest)) = .error .unexpected := by
  have base : parseBaseType (⟨.word text none, spaced⟩ :: ⟨.symbol "(", quoted⟩ ::
      ⟨token, false⟩ :: (more ++ mark ")" :: rest)) = parseCustomType _ :=
    parseBaseType_custom (by rintro keyword ⟨⟩; exact unlisted)
  rcases parseCustomType_group comma close rest with fails | ⟨type, found⟩
  · exact bind_fails (bind_fails (base.trans fails))
  · exact parseTyped_custom _ (base.trans found) (ne_of_quiet quiet (by decide))

theorem Starts.negates_group (starts : Starts ls) : Negates (groupLexemes ls) := by
  obtain ⟨token, more, split, -, comma, close⟩ := starts false
  refine ⟨fun rest => nofun, fun g spaced rest quiet => ?_⟩
  rw [groupLexemes, split, List.cons_append, List.cons_append, List.cons_append, List.append_assoc]
  exact parseTyped_group g (by decide) comma close quiet

theorem ReadsAs.nested (reads : ReadsAs d n negatable e floor ceiling) (positive : 0 < ceiling) :
    OperandReads d (n + 1) (.nested e) := by
  obtain ⟨ls, spells, starts, -, builds⟩ := reads
  refine ⟨groupLexemes ls, ?_, starts.group, starts.negates_group, builds.group starts positive⟩
  rw [Expr.render]
  exact spells.parenthesized

/-- A pattern match with its pattern. -/
theorem ExprReads.behind_like {l r : Expr} {floorL floorR ceilingR : Nat}
    (right : ExprReads d n r floorR ceilingR) (kind : PatternKind) (negated : Bool)
    (loose : (precedence d).like ≤ floorL) (tight : (precedence d).like < ceilingR) :
    ∃ tail, Continues d (n + 1) l (.pattern kind negated l r none) tail floorL
      (min (precedence d).like floorR) (precedence d).like := by
  obtain ⟨lr, spellsR, startsR, -, buildsR⟩ := right
  have words : notWords negated ++ kind.words ≠ [] := by cases kind <;> simp [PatternKind.words]
  refine ⟨wordLexemes (notWords negated ++ kind.words) ++ lr true, fun {ll} spellsL => ?_, ?_, ?_,
    wordLexemes_inside words _, ?_, ?_⟩
  · have words : Sql.spaced (notWords negated ++ kind.words) =
        " " ++ notWord negated ++ kind.text := by
      cases negated <;> cases kind <;> decide
    have spells := spellsL.words (notWords negated ++ kind.words)
      (by cases negated <;> cases kind <;> decide)
    rw [words] at spells
    simpa [Expr.render, String.append_assoc] using spells.blank spellsR
  · cases negated <;> cases kind <;> exact List.cons_ne_nil _ _
  · cases negated <;> cases kind <;> rfl
  · refine fun rest _ => ⟨?_, some ((precedence d).like, .list), ?_, by simpa using loose⟩
    · cases negated <;> cases kind <;> rfl
    · rw [List.append_assoc]
      exact peekInfix_pattern ..
  · intro below rest under ends
    rw [parseInfixes, dialect_nestedParsers, List.append_assoc]
    refine bind_of (peekInfix_pattern ..) ?_
    simp only [if_pos under]
    refine bind_of ((parseListInfix_pattern kind negated _).trans ?_) rfl
    have read := buildsR.reads tight (ends.mono (Nat.min_le_right _ _))
      (ends.mono (Nat.min_le_left _ _)) true
    rw [parsePattern, dialect_nestedParsers]
    exact bind_of read (bind_of (eatWord_other (keyword_of_quiet ends.1 (by decide))) rfl)

/-- No query starts where an operand without a parenthesis does. -/
theorem query_fails {tokens : List Lexeme}
    (words : ∀ keyword ∈ keyword? tokens, keyword ∉ notOpeners)
    (group : next? tokens ≠ some (.symbol "(")) :
    (nestedParsers d (n + 1)).query tokens = .error .unexpected := by
  have other {keyword : String} (member : keyword ∈ notOpeners) :
      eatWord keyword tokens = .ok (false, tokens) :=
    eatWord_other fun same => words keyword same member
  have among : ∀ keyword ∈ ["SELECT", "FROM"], keyword ∈ notOpeners := by decide
  have select : ∀ keyword ∈ keyword? tokens, keyword ∉ ["SELECT", "FROM"] :=
    fun keyword same member => words keyword same (among keyword member)
  have write : parseWrite (nestedParsers d n) tokens = .ok (none, tokens) :=
    bind_of (other (by decide)) (bind_of (other (by decide)) (bind_of (other (by decide)) rfl))
  refine bind_of (bind_of (other (by decide)) rfl) (bind_of write ?_)
  refine bind_fails (bind_fails ?_)
  refine bind_of (isOneOfAt_other select) ?_
  exact bind_of (eat_other group) (bind_of (other (by decide)) rfl)

/-- The expression reads back where any expression may stand. -/
theorem Builds.takes (builds : Builds d n ls e floor ceiling) (positive : 0 < ceiling) :
    Takes (parseExpr (nestedParsers d (n + 1))) (Ends d 0) ls e := fun spaced _ ends =>
  builds.reads positive (ends.mono (Nat.zero_le _)) ends spaced

theorem ExprReads.readsBack (reads : ExprReads d n e floor ceiling) (positive : 0 < ceiling) :
    ReadsBack d e.render (parseExpr (nestedParsers d (n + 1))) (Ends d 0) e := by
  obtain ⟨ls, spells, -, -, builds⟩ := reads
  exact ⟨ls, spells, builds.takes positive⟩

theorem renderExprs_eq_map (es : List Expr) : renderExprs es = es.map Expr.render := by
  induction es with
  | nil => rfl
  | cons e es ih => rw [renderExprs, ih, List.map_cons]

theorem peekInfix_in (p : Precedence) (negated : Bool) (rest : List Lexeme) :
    peekInfix p (wordLexemes (notWords negated ++ ["IN"]) ++ rest) =
      .ok (some (p.between, .list), wordLexemes (notWords negated ++ ["IN"]) ++ rest) := by
  cases negated <;> rfl

theorem parseListInfix_in {g : Nested} (negated : Bool) (tokens : List Lexeme) :
    parseListInfix g e (wordLexemes (notWords negated ++ ["IN"]) ++ tokens) =
      parseIn g negated e tokens := by
  cases negated <;> rfl

/-- A list of values, of which the first does not start a query. -/
theorem values_read {vs : List Value} (nonempty : vs ≠ []) (plain : ∀ v ∈ vs, v.isPlain d = true) :
    ∃ token more,
      Spells d (commaJoin ((vs.map Expr.value).map Expr.render))
        (fun spaced => ⟨token, spaced⟩ :: more) ∧
      isOpener token = true ∧ (∀ text, token ≠ .symbol text) ∧
      Takes (commaList (parseExpr (nestedParsers d (n + 1))))
        (fun rest => Ends d 0 rest ∧ next? rest ≠ some (.symbol ","))
        (fun spaced => ⟨token, spaced⟩ :: more) (vs.map .value) := by
  obtain ⟨v, vs, rfl⟩ := List.exists_cons_of_ne_nil nonempty
  rw [List.forall_mem_cons] at plain
  have read := Value.isRead_of_isPlain plain.1
  obtain ⟨opener, group⟩ := Value.token_opens read
  have others : ∀ e ∈ vs.map Expr.value,
      ReadsBack d e.render (parseExpr (nestedParsers d (n + 1))) (Ends d 0) e :=
    List.forall_mem_map.mpr fun v member =>
      ExprReads.readsBack ((value_reads n (plain.2 v member)).readsAs false 0 1) Nat.one_pos
  have spells : Spells d (Expr.render (.value v)) fun spaced => [⟨v.token, spaced⟩] :=
    spells_value plain.1
  obtain ⟨more, spell, take⟩ := commaList_opens (fun rest => ends_mark (by decide) d 0 rest) spells
    ((builds_operand (value_takes n read) 0 1).takes Nat.one_pos) others
  exact ⟨v.token, more, spell, opener, group, take⟩

theorem parseIn_values {vs : List Value} (negated : Bool) (nonempty : vs ≠ [])
    (plain : ∀ v ∈ vs, v.isPlain d = true) :
    ∃ lv, Spells d ("(" ++ commaJoin ((vs.map Expr.value).map Expr.render) ++ ")")
        (fun spaced => ⟨.symbol "(", spaced⟩ :: (lv ++ [mark ")"])) ∧
      ∀ rest, parseIn (nestedParsers d (n + 1)) negated e
        (⟨.symbol "(", true⟩ :: (lv ++ mark ")" :: rest)) =
          .ok (.inList negated e (vs.map .value), rest) := by
  obtain ⟨token, more, spells, opener, symbol, takes⟩ := values_read (n := n) nonempty plain
  refine ⟨_, spells.parenthesized, fun rest => bind_of (expect_here "(" _) ?_⟩
  have parenthesis : next? (⟨token, false⟩ :: (more ++ mark ")" :: rest)) ≠ some (.symbol "(") := by
    simpa using symbol "("
  have query := query_fails (d := d) (n := n) (keyword_of_opener opener) parenthesis
  refine bind_of (attempt_none query) ?_
  refine bind_of (eatIf_other _ (isOpener_apart opener).2) ?_
  have items := takes false (mark ")" :: rest) ⟨ends_mark (by decide) d 0 rest, by simp [mark]⟩
  exact bind_of items (bind_of (expect_here ")" _) rfl)

theorem parseIn_empty (negated : Bool) (allowed : d.hasEmptyInList = true) (rest : List Lexeme) :
    parseIn (nestedParsers d (n + 1)) negated e (⟨.symbol "(", true⟩ :: mark ")" :: rest) =
      .ok (.inList negated e [], rest) := by
  have query : (nestedParsers d (n + 1)).query (mark ")" :: rest) = .error .unexpected :=
    query_fails (by rintro keyword ⟨⟩) (by simp [mark])
  refine bind_of (expect_here "(" _) (bind_of (attempt_none query) ?_)
  rw [dialect_nestedParsers, allowed]
  exact bind_of (eat_here ")" rest) rfl

/-- IN with what stands in its parenthesis. -/
theorem continues_in {text : String} {lv : List Lexeme} (negated : Bool)
    (render : e'.render = e.render ++ " " ++ notWord negated ++ "IN (" ++ text ++ ")")
    (spells : Spells d ("(" ++ text ++ ")")
      fun spaced => ⟨.symbol "(", spaced⟩ :: (lv ++ [mark ")"]))
    (read : ∀ rest, parseIn (nestedParsers d (n + 1)) negated e
      (⟨.symbol "(", true⟩ :: (lv ++ mark ")" :: rest)) = .ok (e', rest))
    (loose : (precedence d).between ≤ floor) (floor' : Nat) :
    Continues d (n + 1) e e' (wordLexemes (notWords negated ++ ["IN"]) ++ ⟨.symbol "(", true⟩ ::
      (lv ++ [mark ")"])) floor floor' (precedence d).between := by
  refine ⟨fun {ls} front => ?_, ?_, ?_, wordLexemes_inside (by simp) _, ?_, ?_⟩
  · have words : Sql.spaced (notWords negated ++ ["IN"]) = " " ++ notWord negated ++ "IN" := by
      cases negated <;> decide
    have front := front.words (notWords negated ++ ["IN"]) (by cases negated <;> decide)
    rw [words] at front
    have whole : e'.render =
        e.render ++ (" " ++ notWord negated ++ "IN") ++ " " ++ ("(" ++ text ++ ")") := by
      have opening : "IN (" = "IN" ++ " " ++ "(" := rfl
      simp only [render, opening, String.append_assoc]
    rw [whole]
    have all := front.blank spells
    simpa only [List.append_assoc, List.cons_append] using all
  · cases negated <;> exact List.cons_ne_nil _ _
  · cases negated <;> rfl
  · refine fun rest _ => ⟨?_, some ((precedence d).between, .list), ?_, by simpa using loose⟩
    · cases negated <;> rfl
    · rw [List.append_assoc]
      exact peekInfix_in ..
  · intro below rest under ends
    rw [parseInfixes, dialect_nestedParsers, List.append_assoc]
    refine bind_of (peekInfix_in ..) ?_
    simp only [if_pos under]
    refine bind_of ((parseListInfix_in negated _).trans ?_) rfl
    rw [List.cons_append, List.append_assoc]
    exact read rest

/-- IN with a list of values, which may be empty in some dialects. -/
theorem exists_continues_inList {vs : List Value} (negated : Bool)
    (listed : vs ≠ [] ∨ d.hasEmptyInList = true) (plain : ∀ v ∈ vs, v.isPlain d = true)
    (loose : (precedence d).between ≤ floor) (floor' : Nat) :
    ∃ tail, Continues d (n + 1) e (.inList negated e (vs.map .value)) tail floor floor'
      (precedence d).between := by
  obtain ⟨lv, spellsV, read⟩ : ∃ lv,
      Spells d ("(" ++ commaJoin ((vs.map Expr.value).map Expr.render) ++ ")")
        (fun spaced => ⟨.symbol "(", spaced⟩ :: (lv ++ [mark ")"])) ∧
      ∀ rest, parseIn (nestedParsers d (n + 1)) negated e
        (⟨.symbol "(", true⟩ :: (lv ++ mark ")" :: rest)) =
          .ok (.inList negated e (vs.map .value), rest) := by
    by_cases nonempty : vs = []
    · subst nonempty
      exact ⟨[], .parentheses, parseIn_empty negated (listed.resolve_left (absurd rfl))⟩
    · exact parseIn_values negated nonempty plain
  have render : Expr.render (.inList negated e (vs.map .value)) = e.render ++ " " ++
      notWord negated ++ "IN (" ++ commaJoin ((vs.map Expr.value).map Expr.render) ++ ")" := by
    rw [Expr.render, renderExprs_eq_map]
  exact ⟨_, continues_in negated render spellsV read loose floor'⟩

/-- A negation goes on as far as its operators bind tighter than NOT. -/
theorem ReadsAs.not (reads : ReadsAs d n true e floor ceiling)
    (tight : (precedence d).not < ceiling) (ceiling' : Nat) :
    ReadsAs d (n + 1) true (.unary .not e) (min (precedence d).not floor) ceiling' := by
  obtain ⟨ls, spells, starts, negates, builds⟩ := reads
  have negates := negates rfl
  refine ⟨fun spaced => ⟨.word "NOT" none, spaced⟩ :: ls true, ?_, ?_, fun _ => ?_, ?_⟩
  · have word := spells_letters (d := d) "NOT" (by decide) (by decide)
    have text : Expr.render (.unary .not e) = "NOT" ++ " " ++ e.render := by
      have opening : "NOT " = "NOT" ++ " " := rfl
      simp only [Expr.render, UnaryOp.text, opening]
    exact text ▸ word.blank spells
  · obtain ⟨token, more, split, opener, -⟩ := starts true
    refine fun spaced => ⟨_, _, rfl, by decide, ?_, ?_⟩ <;> rw [split, next?_cons]
    · exact (isOpener_apart opener).1
    · exact (isOpener_apart opener).2
  · exact negates_of_head rfl (by simp) (by decide)
  · intro spaced rest level result _ ends goes
    have untyped := negates.untyped (nestedParsers d (n + 1)) spaced rest ends.1
    have special (operand : Parse Expr) : parseSpecial (nestedParsers d (n + 1)) "NOT"
        (keywordText "NOT") operand (ls true ++ rest) = .ok (some (.unary .not e), rest) := by
      refine bind_of (bind_of (eatWord_other (negates.word rest)) ?_) rfl
      rw [dialect_nestedParsers]
      exact bind_of (builds.reads tight (ends.mono (Nat.min_le_right _ _))
        (ends.mono (Nat.min_le_left _ _)) true) rfl
    have whole : parseDotted (nestedParsers d (n + 1))
        (⟨.word "NOT" none, spaced⟩ :: (ls true ++ rest)) = .ok (.unary .not e, rest) :=
      parseDotted_alone (parseOperand_word _ (parseWordOperand_special untyped (special _))
        (keyword_of_quiet ends.1 (by decide))) ends.1
    exact bind_of whole (bind_of rfl (goes rest.length (Nat.le_refl _)))

end Infixes

/-- The expression reads back where a whole expression may stand. -/
def StandsAlone (d : Dialect) (n : Nat) (e : Expr) : Prop :=
  ∃ floor ceiling, ExprReads d n e floor ceiling ∧ 0 < ceiling

theorem StandsAlone.readsBack {d : Dialect} {n : Nat} {e : Expr} (alone : StandsAlone d n e) :
    ReadsBack d e.render (parseExpr (nestedParsers d (n + 1))) (Ends d 0) e := by
  obtain ⟨floor, ceiling, reads, positive⟩ := alone
  exact reads.readsBack positive

end SealedColumns.Sql

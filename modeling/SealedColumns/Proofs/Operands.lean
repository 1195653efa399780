import SealedColumns.Proofs.Reparse

/-!
Columns and values read back as operands. The parser of operands looks for many forms that open
with a word before it takes the word for a name, so a column is asked not to open any of them.
-/
namespace SealedColumns.Sql

open SealedColumns.Text Parse Lexer

theorem dialect_nestedParsers (d : Dialect) (n : Nat) : (nestedParsers d n).dialect = d := by
  cases n <;> rfl

theorem depth_nestedParsers (d : Dialect) (n : Nat) : (nestedParsers d n).depth = n := by
  cases n <;> rfl

/-- Words behind an operand that go on with the expression or end it. -/
def quietWords : List String :=
  ["AND", "ANTI", "AS", "BETWEEN", "CROSS", "EXCEPT", "FROM", "FULL", "GROUP", "HAVING", "ILIKE",
    "IN", "INNER", "INTERSECT", "IS", "JOIN", "LEFT", "LIKE", "LIMIT", "MINUS", "NATURAL", "NOT",
    "OFFSET", "ON", "OR", "ORDER", "RETURNING", "RIGHT", "SEMI", "SET", "SIMILAR", "UNION", "WHERE",
    "XOR"]

/-- What an operand in front of it does not take for a part of itself. -/
def isQuiet : Option Token → Bool
  | none => true
  | some (.symbol text) => text == ")" || text == "," || Lexer.plainOperators.contains text
  | some token => token.keyword?.any quietWords.contains

theorem ne_of_quiet {t : Token} {o : Option Token} (quiet : isQuiet o = true)
    (other : isQuiet (some t) = false) : o ≠ some t := by
  rintro rfl
  rw [quiet] at other
  cases other

variable {tokens rest : List Lexeme}

theorem keyword_of_quiet {keyword : String} (quiet : isQuiet (next? rest) = true)
    (other : keyword ∉ quietWords) : keyword? rest ≠ some keyword := by
  intro same
  cases rest with
  | nil => cases same
  | cons lexeme rest =>
    obtain ⟨token, spaced⟩ := lexeme
    cases token with
    | word text quote =>
      cases quote with
      | none =>
        have found : keywordText text = keyword := Option.some.inj same
        simp only [next?_cons, isQuiet, Token.keyword?, Option.any_some, List.contains_eq_mem,
          decide_eq_true_eq, found] at quiet
        exact other quiet
      | some quote => cases same
    | _ => cases same

section Typed

variable (g : Nested)

theorem parseArraySuffix_stops (other : next? rest ≠ some (.symbol "[")) :
    parseArraySuffix rest = .ok (none, rest) :=
  bind_of (eat_other other) rfl

theorem parseTyped_custom {text : String} (base : parseBaseType tokens = .ok (.custom text, rest))
    (other : next? rest ≠ some (.symbol "[")) : parseTyped g tokens = .error .unexpected := by
  have type : parseType tokens = .ok (.custom text, rest) := by
    refine bind_of base ?_
    exact bind_of (repeated_none (parseArraySuffix_stops other)) rfl
  exact bind_of type rfl

theorem parseBaseType_custom (other : ∀ keyword ∈ keyword? tokens,
      keyword ≠ "INTERVAL" ∧ isListedType keyword = false) :
    parseBaseType tokens = parseCustomType tokens := by
  refine bind_of (peek_zero tokens) (congrFun ?_ tokens)
  split
  · rename_i same
    exact absurd rfl (other _ same).1
  · rename_i keyword _ same
    rw [(other keyword same).2, if_neg Bool.false_ne_true]
  · rfl

theorem parseCustomType_name {name : Name} (parsed : parseName tokens = .ok (name, rest))
    (other : next? rest ≠ some (.symbol "(")) :
    parseCustomType tokens = .ok (.custom name.render, rest) := by
  refine bind_of parsed (bind_of (isAt_zero "(" rest) ?_)
  rw [beq_eq_false_iff_ne.mpr other]
  rfl

/-- A name that no type is listed under is no type in front of a literal. -/
theorem parseTyped_name {name : Name} (parsed : parseName tokens = .ok (name, rest))
    (other : ∀ keyword ∈ keyword? tokens, keyword ≠ "INTERVAL" ∧ isListedType keyword = false)
    (quiet : isQuiet (next? rest) = true) : parseTyped g tokens = .error .unexpected := by
  have base : parseBaseType tokens = .ok (.custom name.render, rest) := by
    rw [parseBaseType_custom other]
    exact parseCustomType_name parsed (ne_of_quiet quiet (by decide))
  exact parseTyped_custom g base (ne_of_quiet quiet (by decide))

end Typed

/-- Words that introduce an expression of their own. -/
def specialWords : List String :=
  ["TRUE", "FALSE", "NULL", "CASE", "ARRAY", "CAST", "TRY_CAST", "SAFE_CAST", "EXISTS", "EXTRACT",
    "CEIL", "FLOOR", "SUBSTR", "SUBSTRING", "TRIM", "INTERVAL", "NOT", "POSITION"] ++ timeWords ++
    userWords

theorem parseSpecial_other (g : Nested) {keyword : String} (text : String) (operand : Parse Expr)
    (other : keyword ∉ specialWords) : parseSpecial g text keyword operand = pure none := by
  have absent : ∀ word ∈ specialWords, keyword ≠ word := by
    rintro word member rfl
    exact other member
  have time : timeWords.contains keyword = false := by
    rw [List.contains_eq_mem, decide_eq_false_iff_not]
    exact fun member => other (by simp [specialWords, member])
  have user : userWords.contains keyword = false := by
    rw [List.contains_eq_mem, decide_eq_false_iff_not]
    exact fun member => other (by simp [specialWords, member])
  unfold parseSpecial
  split
  all_goals first
    | rw [time, user, Bool.and_false, if_neg Bool.false_ne_true, if_neg Bool.false_ne_true]
    | exact absurd rfl (absent _ (by simp [specialWords]))

section Operands

variable {g : Nested} {operand : Parse Expr} {text : String} {quote : Option Char} {e : Expr}
  {spaced : Bool}

/-- A word that introduces a form of its own. -/
theorem parseWordOperand_special
    (untyped : parseTyped g (⟨.word text none, spaced⟩ :: tokens) = .error .unexpected)
    (special : parseSpecial g text (keywordText text) operand tokens = .ok (some e, rest)) :
    parseWordOperand g operand (⟨.word text none, spaced⟩ :: tokens) = .ok (e, rest) := by
  refine bind_of (attempt_none untyped) (bind_of (a := .word text none) (m := tokens) rfl ?_)
  simp only [Option.isNone_none, if_true]
  split
  · exact bind_of special rfl
  · exact bind_of (attempt_some (bind_of special rfl)) rfl

/-- The word under which a name could introduce a form of its own. -/
def Ident.formWord (ident : Ident) : String :=
  if ident.quote.isNone then keywordText ident.text else ""

theorem parseWordOperand_name
    (untyped : parseTyped g (⟨.word text quote, spaced⟩ :: tokens) = .error .unexpected)
    (other : Ident.formWord ⟨text, quote⟩ ∉ specialWords)
    (quiet : next? tokens ≠ some (.symbol "(")) :
    parseWordOperand g operand (⟨.word text quote, spaced⟩ :: tokens) =
      .ok (.column [] ⟨text, quote⟩, tokens) := by
  have plain : parsePlainWord g ⟨text, quote⟩ tokens = .ok (.column [] ⟨text, quote⟩, tokens) := by
    refine bind_of (isAt_zero "(" tokens) ?_
    rw [beq_eq_false_iff_ne.mpr quiet]
    rfl
  have special : parseSpecial g text (Ident.formWord ⟨text, quote⟩) operand tokens =
      .ok (none, tokens) := by
    rw [parseSpecial_other g text operand other]
    rfl
  have word : (if quote.isNone then keywordText text else "") = Ident.formWord ⟨text, quote⟩ := rfl
  refine bind_of (attempt_none untyped) (bind_of (a := .word text quote) (m := tokens) rfl ?_)
  simp only [word]
  split
  · exact bind_of special plain
  · exact bind_of (attempt_some (bind_of special plain)) rfl

theorem parseOperand_word (fuel : Nat)
    (parsed : parseWordOperand g (parseOperand g fuel) (⟨.word text quote, spaced⟩ :: tokens) =
      .ok (e, rest)) (collate : keyword? rest ≠ some "COLLATE") :
    parseOperand g (fuel + 1) (⟨.word text quote, spaced⟩ :: tokens) = .ok (e, rest) := by
  refine bind_of (peek_zero _) ?_
  simp only [next?_cons]
  exact bind_of parsed (bind_of (eatWord_other collate) rfl)

theorem parseAccess_stops (quiet : isQuiet (next? rest) = true) :
    parseAccess g rest = .ok (none, rest) := by
  refine bind_of (isAt_zero "." rest) ?_
  rw [beq_eq_false_iff_ne.mpr (ne_of_quiet quiet (by decide))]
  exact bind_of (eatIf_other _ (ne_of_quiet quiet (by decide))) rfl

theorem parseDotted_alone
    (parsed : parseOperand g (tokens.length + 1) tokens = .ok (e, rest))
    (quiet : isQuiet (next? rest) = true) : parseDotted g tokens = .ok (e, rest) := by
  refine bind_of rfl (bind_of parsed ?_)
  have accesses : parseAccesses g rest = .ok ([], rest) :=
    bind_of (repeated_none (parseAccess_stops quiet)) rfl
  refine bind_of accesses ?_
  cases e <;> rfl

def accessLexemes : Access → List Lexeme
  | .part ident => [mark ".", ⟨.word ident.text ident.quote, false⟩]
  | .index _ => []

theorem parseAccess_part (ident : Ident) (behind : List Lexeme) :
    parseAccess g (accessLexemes (.part ident) ++ behind) = .ok (some (.part ident), behind) :=
  rfl

theorem flatMap_accessLexemes (parts : List Ident) :
    (parts.map Access.part).flatMap accessLexemes = partLexemes parts := by
  rw [List.flatMap_map]
  rfl

theorem nameParts?_parts (parts : List Ident) : nameParts? (parts.map .part) = some parts := by
  induction parts with
  | nil => rfl
  | cons part parts ih => rw [List.map_cons, nameParts?, ih, Option.map_some]

/-- A name in which each part but the last qualifies the next. -/
theorem parseDotted_name {ident : Ident} {parts : List Ident} {last : Ident}
    (untyped : parseTyped g (nameLexemes (ident :: (parts ++ [last])) spaced ++ rest) =
      .error .unexpected)
    (other : ident.formWord ∉ specialWords) (deep : parts.length < g.depth)
    (quiet : isQuiet (next? rest) = true) :
    parseDotted g (nameLexemes (ident :: (parts ++ [last])) spaced ++ rest) =
      .ok (.column (ident :: parts) last, rest) := by
  have behind : next? (partLexemes (parts ++ [last]) ++ rest) = some (.symbol ".") := by
    cases parts <;> rfl
  have operand : parseOperand g
      ((nameLexemes (ident :: (parts ++ [last])) spaced ++ rest).length + 1)
      (nameLexemes (ident :: (parts ++ [last])) spaced ++ rest) =
        .ok (.column [] ident, partLexemes (parts ++ [last]) ++ rest) := by
    have group : next? (partLexemes (parts ++ [last]) ++ rest) ≠ some (.symbol "(") := by
      rw [behind]
      decide
    have collate : keyword? (partLexemes (parts ++ [last]) ++ rest) ≠ some "COLLATE" := by
      rw [keyword?, behind]
      decide
    exact parseOperand_word _ (parseWordOperand_name untyped other group) collate
  have accesses : parseAccesses g (partLexemes (parts ++ [last]) ++ rest) =
      .ok ((parts ++ [last]).map .part, rest) := by
    have taken := repeated_items accessLexemes (parseAccess_stops (g := g) quiet)
      ((parts ++ [last]).map .part)
      (List.forall_mem_map.mpr fun part _ => parseAccess_part part)
      (List.forall_mem_map.mpr fun part _ => List.cons_ne_nil _ _)
    rw [flatMap_accessLexemes] at taken
    refine bind_of taken ?_
    rw [if_neg (by simp; omega)]
    rfl
  refine bind_of rfl (bind_of operand (bind_of accesses ?_))
  simp only [nameParts?_parts, Option.bind_some, List.getLast?_concat, Option.map_some]
  refine bind_of (isAt_zero "(" rest) ?_
  rw [beq_eq_false_iff_ne.mpr (ne_of_quiet quiet (by decide))]
  simp
  rfl

end Operands

/-- Words that an operand does not start with, since a query, a quantifier or a write would. -/
def notOpeners : List String :=
  ["ALL", "ANY", "DELETE", "DISTINCT", "FROM", "INSERT", "SELECT", "SOME", "TOP", "UPDATE",
    "VALUES", "WITH"]

def isOpener (token : Token) : Bool :=
  token != .symbol ")" && token != .symbol "," && !(token.keyword?.any notOpeners.contains)

/-- The lexemes start like an operand, and no list of operands ends with the first of them unless
there is only one. -/
def Starts (ls : Bool → List Lexeme) : Prop :=
  ∀ spaced, ∃ token more, ls spaced = ⟨token, spaced⟩ :: more ∧ isOpener token = true ∧
    next? more ≠ some (.symbol ",") ∧ next? more ≠ some (.symbol ")")

theorem starts_single {token : Token} (opener : isOpener token = true) :
    Starts fun spaced => [⟨token, spaced⟩] :=
  fun _ => ⟨token, [], rfl, opener, by simp, by simp⟩

/-- NOT in front of the lexemes negates what they are: together they are no type of a literal, and
EXISTS is not next. -/
structure Negates (ls : Bool → List Lexeme) : Prop where
  word : ∀ rest, keyword? (ls true ++ rest) ≠ some "EXISTS"
  untyped : ∀ (g : Nested) (spaced : Bool) (rest : List Lexeme), isQuiet (next? rest) = true →
    parseTyped g (⟨.word "NOT" none, spaced⟩ :: (ls true ++ rest)) = .error .unexpected

theorem parseBaseType_not (spaced : Bool) (tokens : List Lexeme) :
    parseBaseType (⟨.word "NOT" none, spaced⟩ :: tokens) =
      parseCustomType (⟨.word "NOT" none, spaced⟩ :: tokens) :=
  parseBaseType_custom (by rintro keyword ⟨⟩; decide)

theorem untyped_not (g : Nested) {token : Token} (other : ∀ text, token ≠ .symbol text)
    (spaced quoted : Bool) :
    parseTyped g (⟨.word "NOT" none, spaced⟩ :: ⟨token, quoted⟩ :: rest) = .error .unexpected := by
  have apart (text : String) : next? (⟨token, quoted⟩ :: rest) ≠ some (.symbol text) := by
    simpa using other text
  have name := parseName_takes [.bare "NOT"] (List.cons_ne_nil _ _) spaced _ (apart ".")
  have base := (parseBaseType_not spaced _).trans (parseCustomType_name name (apart "("))
  exact parseTyped_custom g base (apart "[")

theorem negates_of_head {ls : Bool → List Lexeme} {token : Token} {more : List Lexeme}
    (split : ls true = ⟨token, true⟩ :: more) (other : ∀ text, token ≠ .symbol text)
    (word : token.keyword? ≠ some "EXISTS") : Negates ls := by
  refine ⟨fun rest => ?_, fun g spaced rest _ => ?_⟩ <;> rw [split]
  · exact word
  · exact untyped_not g other spaced true

/-- An operand reads back wherever one may stand, also behind NOT, with `n` levels left inside. -/
def OperandReads (d : Dialect) (n : Nat) (e : Expr) : Prop :=
  ∃ ls, Spells d e.render ls ∧ Starts ls ∧ Negates ls ∧
    Takes (parseDotted (nestedParsers d n)) (fun rest => isQuiet (next? rest) = true) ls e

/-- The name may start an expression. -/
def Ident.isColumn (d : Dialect) (ident : Ident) : Bool :=
  ident.isPlain d && !(specialWords ++ notOpeners).contains ident.formWord &&
    !isListedType ident.formWord

theorem Ident.formWord_eq {ident : Ident} {s : Bool} {r : List Lexeme} (keyword : String)
    (member : keyword ∈ keyword? (⟨.word ident.text ident.quote, s⟩ :: r)) :
    ident.formWord = keyword := by
  obtain ⟨text, quote⟩ := ident
  cases quote with
  | none => exact Option.some.inj member
  | some quote => cases member

section Atoms

variable {d : Dialect} {n : Nat} {spaced : Bool}

theorem parseDotted_column {qualifier : List Ident} {name first : Ident}
    (head : (qualifier ++ [name]).head? = some first) (column : first.isColumn d = true)
    (deep : qualifier.length ≤ n) (quiet : isQuiet (next? rest) = true) :
    parseDotted (nestedParsers d n) (nameLexemes (qualifier ++ [name]) spaced ++ rest) =
      .ok (.column qualifier name, rest) := by
  simp only [Ident.isColumn, Bool.and_eq_true, Bool.not_eq_true', List.contains_eq_mem,
    decide_eq_false_iff_not, List.mem_append, not_or] at column
  obtain ⟨⟨-, special, -⟩, listed⟩ := column
  obtain ⟨others, split⟩ := List.head?_eq_some_iff.mp head
  have untyped : parseTyped (nestedParsers d n)
      (nameLexemes (qualifier ++ [name]) spaced ++ rest) = .error .unexpected := by
    have parsed := parseName_takes (qualifier ++ [name]) (by simp) spaced rest
      (ne_of_quiet quiet (by decide))
    refine parseTyped_name _ parsed (fun word member => ?_) quiet
    rw [split] at member
    obtain rfl := Ident.formWord_eq word member
    refine ⟨?_, listed⟩
    intro same
    exact special (by rw [same]; decide)
  cases qualifier with
  | nil =>
    cases head
    exact parseDotted_alone (parseOperand_word _
      (parseWordOperand_name untyped special (ne_of_quiet quiet (by decide)))
      (keyword_of_quiet quiet (by decide))) quiet
  | cons ident parts =>
    cases head
    exact parseDotted_name untyped special (by rw [depth_nestedParsers]; exact deep) quiet

theorem isOpener_column {first : Ident} (column : first.isColumn d = true) :
    isOpener (.word first.text first.quote) = true := by
  simp only [Ident.isColumn, Bool.and_eq_true, Bool.not_eq_true', List.contains_eq_mem,
    decide_eq_false_iff_not, List.mem_append, not_or] at column
  simp only [isOpener, bne_iff_ne, ne_eq, reduceCtorEq, not_false_eq_true, Bool.and_eq_true,
    Bool.not_eq_true', Option.any_eq_false, List.contains_eq_mem, decide_eq_false_iff_not,
    true_and]
  intro word member
  rw [← Ident.formWord_eq (s := false) (r := []) word member]
  exact column.1.2.2

theorem column_ne_exists {first : Ident} (column : first.isColumn d = true) :
    (Token.word first.text first.quote).keyword? ≠ some "EXISTS" := by
  simp only [Ident.isColumn, Bool.and_eq_true, Bool.not_eq_true', List.contains_eq_mem,
    decide_eq_false_iff_not, List.mem_append, not_or] at column
  intro same
  have word := Ident.formWord_eq (s := false) (r := []) "EXISTS" same
  exact column.1.2.1 (word ▸ by decide)

theorem column_reads {qualifier : List Ident} {name first : Ident}
    (head : (qualifier ++ [name]).head? = some first) (column : first.isColumn d = true)
    (plain : ∀ ident ∈ qualifier ++ [name], ident.isPlain d = true) (deep : qualifier.length ≤ n) :
    OperandReads d n (.column qualifier name) := by
  refine ⟨nameLexemes (qualifier ++ [name]), spells_name (by simp) plain, ?_, ?_,
    fun spaced rest quiet => parseDotted_column head column deep quiet⟩ <;>
    obtain ⟨others, split⟩ := List.head?_eq_some_iff.mp head <;> rw [split]
  · refine fun spaced => ⟨.word first.text first.quote, partLexemes others, rfl,
      isOpener_column column, ?_, ?_⟩ <;> cases others <;> simp [partLexemes, mark]
  · exact negates_of_head rfl (by simp) (column_ne_exists column)

theorem joinLiterals_stops (quiet : isQuiet (next? rest) = true) :
    joinLiterals d rest = .ok (none, rest) := by
  unfold joinLiterals
  split
  · rfl
  · refine bind_of (peek_zero rest) ?_
    cases found : next? rest with
    | none => rfl
    | some token =>
      rw [found] at quiet
      cases token with
      | string text => cases quiet
      | doubleQuoted text => cases quiet
      | _ => rfl

/-- A literal or a placeholder that is no word and no sign. -/
theorem parseDotted_value {g : Nested} {token : Token} {v : Value}
    (parsed : parseValue g.dialect (⟨token, spaced⟩ :: rest) = .ok (v, rest))
    (sign : ∀ text, token ≠ .symbol text) (word : ∀ text quote, token ≠ .word text quote)
    (quiet : isQuiet (next? rest) = true) :
    parseDotted g (⟨token, spaced⟩ :: rest) = .ok (.value v, rest) := by
  refine parseDotted_alone (bind_of (peek_zero _) ?_) quiet
  rw [next?_cons]
  cases token with
  | symbol text => exact absurd rfl (sign text)
  | word text quote => exact absurd rfl (word text quote)
  | _ =>
    refine bind_of parsed (bind_of rfl ?_)
    exact bind_of (eatWord_other (keyword_of_quiet quiet (by decide))) rfl

/-- A word that stands for a value. -/
theorem parseDotted_constant {g : Nested} {text : String} {v : Value}
    (special : ∀ operand, parseSpecial g text (keywordText text) operand = pure (some (.value v)))
    (untyped : keywordText text ≠ "INTERVAL" ∧ isListedType (keywordText text) = false)
    (quiet : isQuiet (next? rest) = true) :
    parseDotted g (⟨.word text none, spaced⟩ :: rest) = .ok (.value v, rest) := by
  have parsed := parseName_takes [.bare text] (List.cons_ne_nil _ _) spaced rest
    (ne_of_quiet quiet (by decide))
  have typed : parseTyped g (⟨.word text none, spaced⟩ :: rest) = .error .unexpected := by
    refine parseTyped_name g parsed ?_ quiet
    rintro keyword ⟨⟩
    exact untyped
  refine parseDotted_alone (parseOperand_word _ (parseWordOperand_special typed ?_)
    (keyword_of_quiet quiet (by decide))) quiet
  rw [special]
  rfl

end Atoms

section Values

variable {ν : Type}

/-- The value reads as it is printed. -/
def Value.isPlain (d : Dialect) : Value ν → Bool
  | .number text long => isPlainNumber d text long
  | .string text => isPlainLiteral d text
  | .boolean _ | .null => true
  | .placeholder .anonymous | .placeholder (.numbered _) => !d.hasQuestionOperator
  | _ => false

/-- The token that the value is. -/
def Value.token : Value → Token
  | .number text long => .number text long
  | .string text => .string text
  | .doubleQuoted text => .doubleQuoted text
  | .verbatim text => .verbatim text
  | .boolean value => .word (if value then "true" else "false") none
  | .null => .word "NULL" none
  | .placeholder .anonymous => .placeholder "?"
  | .placeholder (.named text) => .placeholder text

/-- The value is read from its token, whatever its text is. -/
def Value.isRead : Value → Bool
  | .number _ _ | .string _ | .boolean _ | .null | .placeholder .anonymous => true
  | .placeholder (.named text) => text != "?"
  | _ => false

theorem Value.isRead_of_isPlain {d : Dialect} {v : Value} (plain : v.isPlain d = true) :
    v.isRead = true := by
  cases v with
  | placeholder mark =>
    cases mark with
    | anonymous => rfl
    | numbered ordinal => cases ordinal
    | named text => cases plain
  | doubleQuoted | verbatim => cases plain
  | _ => rfl

theorem Value.token_opens {v : Value} (read : v.isRead = true) :
    isOpener v.token = true ∧ ∀ text, v.token ≠ .symbol text := by
  cases v with
  | boolean value => cases value <;> exact ⟨by decide, by simp [Value.token]⟩
  | null => exact ⟨by decide, by simp [Value.token]⟩
  | placeholder mark =>
    cases mark with
    | numbered ordinal => cases ordinal
    | anonymous | named text => exact ⟨rfl, by simp [Value.token]⟩
  | _ => exact ⟨rfl, by simp [Value.token]⟩

theorem Value.token_ne_exists (v : Value) : v.token.keyword? ≠ some "EXISTS" := by
  cases v with
  | boolean value => cases value <;> decide
  | null => decide
  | placeholder mark =>
    cases mark with
    | numbered ordinal => cases ordinal
    | anonymous | named text => exact nofun
  | _ => exact nofun

theorem spells_value {d : Dialect} {v : Value} (plain : v.isPlain d = true) :
    Spells d v.render fun spaced => [⟨v.token, spaced⟩] := by
  cases v with
  | number text long => exact spells_number plain
  | string text => exact spells_string plain
  | boolean value =>
    cases value with
    | true => exact spells_letters "true" (by decide) (by decide)
    | false => exact spells_letters "false" (by decide) (by decide)
  | null => exact spells_letters "NULL" (by decide) (by decide)
  | placeholder mark =>
    cases mark with
    | anonymous =>
      simp only [Value.isPlain, Bool.not_eq_true'] at plain
      exact spells_question plain
    | numbered ordinal => cases ordinal
    | named text => cases plain
  | _ => cases plain

theorem value_takes {d : Dialect} {v : Value} (n : Nat) (read : v.isRead = true) :
    Takes (parseDotted (nestedParsers d n)) (fun rest => isQuiet (next? rest) = true)
      (fun spaced => [⟨v.token, spaced⟩]) (.value v) := by
  intro spaced rest quiet
  cases v with
  | number text long =>
    exact parseDotted_value rfl (by simp [Value.token]) (by simp [Value.token]) quiet
  | string text =>
    refine parseDotted_value ?_ (by simp [Value.token]) (by simp [Value.token]) quiet
    refine bind_of (a := .string text) (m := rest) rfl ?_
    refine bind_of (repeated_none (joinLiterals_stops quiet)) ?_
    simp
    rfl
  | boolean value =>
    cases value with
    | true => exact parseDotted_constant (fun _ => rfl) (by decide) quiet
    | false => exact parseDotted_constant (fun _ => rfl) (by decide) quiet
  | null => exact parseDotted_constant (fun _ => rfl) (by decide) quiet
  | placeholder mark =>
    cases mark with
    | anonymous =>
      exact parseDotted_value rfl (by simp [Value.token]) (by simp [Value.token]) quiet
    | numbered ordinal => cases ordinal
    | named text =>
      refine parseDotted_value ?_ (by simp [Value.token]) (by simp [Value.token]) quiet
      refine bind_of (a := .placeholder text) (m := rest) rfl ?_
      simp only [Value.isRead, bne_iff_ne] at read
      simp only [beq_eq_false_iff_ne.mpr read]
      rfl
  | _ => cases read

theorem value_reads {d : Dialect} {v : Value} (n : Nat) (plain : v.isPlain d = true) :
    OperandReads d n (.value v) := by
  have read := Value.isRead_of_isPlain plain
  obtain ⟨opener, other⟩ := Value.token_opens read
  exact ⟨_, spells_value plain, starts_single opener,
    negates_of_head rfl other (Value.token_ne_exists v), value_takes n read⟩

end Values

end SealedColumns.Sql

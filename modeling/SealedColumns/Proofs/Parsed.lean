import SealedColumns.Proofs.Operators
import SealedColumns.Proofs.Parsing

/-!
From what a parser gives back to what it has read. Of an expression it is only asked where its
comparisons, its negations and its parentheses come from: all the rest is never taken apart again.
-/
namespace SealedColumns.Sql

namespace Parse

variable {tokens rest : List Lexeme}

theorem eatWord_ok {keyword : String} {found : Bool}
    (run : eatWord keyword tokens = .ok (found, rest)) :
    found = (keyword? tokens == some keyword) ∧ rest = if found then tokens.drop 1 else tokens := by
  rw [eatWord_eq] at run
  split at run
  · rename_i same
    cases run
    exact ⟨by simp [same], rfl⟩
  · rename_i other
    cases run
    exact ⟨by simp [other], rfl⟩

theorem eat_false {text : String} (run : eat text tokens = .ok (false, rest)) : rest = tokens := by
  by_cases here : next? tokens = some (.symbol text)
  · cases tokens with
    | nil => cases here
    | cons lexeme tokens =>
      obtain ⟨token, spaced⟩ := lexeme
      cases here
      rw [eat_here] at run
      cases run
  · rw [eat_other here] at run
    cases run
    rfl

theorem eatIf_false {allowed : Bool} {text : String}
    (run : eatIf allowed text tokens = .ok (false, rest)) : rest = tokens := by
  cases allowed with
  | false =>
    cases run
    rfl
  | true => exact eat_false run

theorem eatIf_true {allowed : Bool} {text : String}
    (run : eatIf allowed text tokens = .ok (true, rest)) : allowed = true := by
  cases allowed with
  | false => cases run
  | true => rfl

theorem eatWordIf_false {allowed : Bool} {keyword : String}
    (run : eatWordIf allowed keyword tokens = .ok (false, rest)) : rest = tokens := by
  cases allowed with
  | false =>
    cases run
    rfl
  | true => exact (eatWord_ok run).2

theorem eatOneOf_none {keywords : List String}
    (run : eatOneOf keywords tokens = .ok (none, rest)) : rest = tokens := by
  obtain ⟨token, m, here, behind⟩ := bind_ok.mp run
  obtain rfl := (looks_peek 0).takes_none here
  cases word : token.bind Token.keyword? with
  | none =>
    rw [word] at behind
    cases behind
    rfl
  | some keyword =>
    rw [word] at behind
    cases known : keywords.contains keyword with
    | true =>
      simp only [known, if_true] at behind
      obtain ⟨_, m', -, same⟩ := bind_ok.mp behind
      cases same
    | false =>
      simp only [known] at behind
      cases behind
      rfl

end Parse

open Parse SealedColumns.Text

section Operands

variable (g : Nested)

/-- Where an operand comes from that `rest` is left behind. -/
def OperandFrom : Expr → List Lexeme → Prop
  | .nested e, _ => ∃ tokens rest, parseExpr g tokens = .ok (e, rest)
  | .unary .not e, rest => ∃ tokens, g.expr (precedence g.dialect).not tokens = .ok (e, rest)
  | .binary .., _ | .isNull .., _ | .inList .., _ => False
  | _, _ => True

/-- The same of a parser that may give nothing. -/
abbrev OptionFrom (found : Option Expr) (rest : List Lexeme) : Prop :=
  ∀ e ∈ found, OperandFrom g e rest

theorem parseCall_from (name : Name) : (parseCall g name).Leaves (OperandFrom g) := by
  unfold parseCall
  repeat' first
    | with_reducible refine leaves_bind fun _ => ?_
    | split
    | exact leaves_pure fun _ => trivial

theorem parseNot_from : (parseNot g).Leaves (OperandFrom g) := by
  unfold parseNot
  refine leaves_bind fun existence => ?_
  split
  · exact leaves_bind fun query => leaves_pure fun _ => trivial
  · intro tokens e rest run
    obtain ⟨inner, m, ran, same⟩ := bind_ok.mp run
    cases same
    exact ⟨tokens, ran⟩

/-- The forms that a keyword introduces and that are kept as a frame or as a call. -/
def framedForms (keyword : String) (operand : Parse Expr) : List (Parse Expr) :=
  [parseCase g, parseCast g keyword, parseExistence g false, parseExtract g,
    parseRounding g keyword, parseSubstring g keyword, parseTrim g, parseInterval operand,
    parsePosition g]

theorem framedForms_from (keyword : String) (operand : Parse Expr) :
    ∀ p ∈ framedForms g keyword operand, p.Leaves (OperandFrom g) := by
  unfold framedForms parseCase parseCast parseExistence parseExtract parseRounding parseSubstring
    parseTrim parseInterval parsePosition
  simp only [List.forall_mem_cons, List.not_mem_nil, false_imp_iff, implies_true, and_true]
  refine ⟨?_, ?_, ?_, ?_, ?_, ?_, ?_, ?_, ?_⟩
  all_goals
    repeat' first
      | with_reducible refine leaves_bind fun _ => ?_
      | exact leaves_pure fun _ => trivial
      | exact leaves_fail
      | split

theorem parseArray_from : (parseArray g).Leaves (OptionFrom g) := by
  unfold parseArray parseArrayItems
  repeat' first
    | exact leaves_none
    | exact leaves_pure fun _ => trivial
    | exact leaves_pure fun _ => by rintro _ ⟨⟩; trivial
    | with_reducible refine leaves_some ?_
    | with_reducible refine leaves_bind fun _ => ?_
    | split

theorem parseSpecial_from (text keyword : String) (operand : Parse Expr) :
    (parseSpecial g text keyword operand).Leaves (OptionFrom g) := by
  have framed : ∀ p ∈ framedForms g keyword operand,
      (p >>= fun e => pure (some e)).Leaves (OptionFrom g) := fun p member =>
    leaves_some (framedForms_from g keyword operand p member)
  have position := framedForms_from g keyword operand
  simp only [framedForms, List.forall_mem_cons] at framed position
  have constant (e : Expr) (other : ∀ rest, OperandFrom g e rest) :
      (pure (some e) : Parse (Option Expr)).Leaves (OptionFrom g) :=
    leaves_pure fun rest => by
      rintro _ ⟨⟩
      exact other rest
  have niladic : (parseNiladic g text).Leaves (OperandFrom g) := by
    refine leaves_bind fun called => ?_
    split
    · exact parseCall_from g _
    · exact leaves_pure fun _ => trivial
  unfold parseSpecial
  split
  any_goals first
    | exact constant _ fun _ => trivial
    | exact parseArray_from g
    | exact leaves_some (parseNot_from g)
    | simp only [framed]
  · refine leaves_bind fun called => ?_
    split
    · exact leaves_some (leaves_orElse position.2.2.2.2.2.2.2.2.1 (parseCall_from g _))
    · exact leaves_none
  · split
    · exact leaves_some niladic
    · split
      · exact constant _ fun _ => trivial
      · exact leaves_none

theorem parsePlainWord_from (ident : Ident) : (parsePlainWord g ident).Leaves (OperandFrom g) := by
  refine leaves_bind fun called => ?_
  split
  · exact parseCall_from g _
  · exact leaves_pure fun _ => trivial

theorem parseWordOperand_from (operand : Parse Expr) :
    (parseWordOperand g operand).Leaves (OperandFrom g) := by
  have typed : (parseTyped g).Leaves (OperandFrom g) := by
    refine leaves_bind fun type => ?_
    split
    · exact leaves_bind fun value => leaves_pure fun _ => trivial
    · exact leaves_fail
    · exact leaves_fail
  refine (leaves_attempt typed).bind fun found tokens each => ?_
  cases found with
  | some e =>
    rintro _ rest ⟨⟩
    exact each _ rfl
  | none =>
    refine leaves_bind (P := OperandFrom g) (fun token => ?_) tokens
    split
    · rename_i text quote
      have special (keyword : String) {k : Option Expr → Parse Expr}
          (given : ∀ e, k (some e) = pure e) (other : k none = parsePlainWord g ⟨text, quote⟩) :
          (parseSpecial g text keyword operand >>= k).Leaves (OperandFrom g) := by
        refine (parseSpecial_from g text keyword operand).bind fun found tokens each a rest => ?_
        cases found with
        | some e =>
          rw [given]
          rintro ⟨⟩
          exact each _ rfl
        | none =>
          rw [other]
          exact parsePlainWord_from g _ _ _ _
      dsimp only
      generalize (if quote.isNone = true then keywordText text else "") = keyword
      split
      · exact special _ (fun _ => rfl) rfl
      · exact leaves_orElse (special _ (fun _ => rfl) rfl) (parsePlainWord_from g _)
    · exact leaves_fail

theorem parseGroup_from : (parseGroup g).Leaves (OperandFrom g) := by
  refine leaves_bind fun subquery => ?_
  split
  · exact leaves_bind fun query => leaves_bind fun _ => leaves_pure fun _ => trivial
  · intro tokens e rest run
    obtain ⟨es, m, list, run⟩ := bind_ok.mp run
    obtain ⟨first, others, m', rfl, here⟩ := commaList_ok list
    obtain ⟨_, m'', -, run⟩ := bind_ok.mp run
    cases others with
    | nil =>
      cases run
      exact ⟨_, _, here⟩
    | cons second others =>
      cases run
      trivial

theorem collate_from {p : Parse Expr} (operand : p.Leaves (OperandFrom g)) :
    (p >>= fun e => do
      if ← eatWord "COLLATE" then
        let collation ← parseName
        return (((FrameBuilder.ofText "").operand e).text (" COLLATE " ++ collation.render)).expr
      else return e).Leaves (OperandFrom g) := by
  refine operand.bind fun e tokens origin e' rest run => ?_
  obtain ⟨found, m, word, run⟩ := bind_ok.mp run
  obtain ⟨-, rfl⟩ := eatWord_ok word
  cases found with
  | true =>
    obtain ⟨collation, m', -, run⟩ := bind_ok.mp run
    cases run
    trivial
  | false =>
    cases run
    exact origin

theorem parseOperand_from (fuel : Nat) : (parseOperand g fuel).Leaves (OperandFrom g) := by
  cases fuel with
  | zero => rintro tokens e rest ⟨⟩
  | succ fuel =>
    have value : (parseValue g.dialect >>= fun v => pure (Expr.value v)).Leaves (OperandFrom g) :=
      leaves_bind fun v => leaves_pure fun _ => trivial
    have items : (parseArrayItems g "").Leaves (OperandFrom g) := by
      unfold parseArrayItems
      repeat' first
        | exact leaves_pure fun _ => trivial
        | with_reducible refine leaves_bind fun _ => ?_
        | split
    have sign (op : UnaryOp) (e : Expr) (other : ∀ rest, OperandFrom g (.unary op e) rest) :
        (pure (.unary op e) : Parse Expr).Leaves (OperandFrom g) := leaves_pure other
    unfold parseOperand
    refine leaves_bind fun token => ?_
    dsimp only
    split
    · exact collate_from g (parseWordOperand_from g _)
    · exact leaves_bind fun _ => collate_from g (parseGroup_from g)
    · refine leaves_bind fun _ => collate_from g ?_
      exact leaves_bind fun e => leaves_pure fun _ => trivial
    · refine leaves_bind fun _ => collate_from g ?_
      exact leaves_bind fun e => leaves_pure fun _ => trivial
    · exact leaves_bind fun _ => collate_from g items
    · split
      · refine leaves_bind fun _ => leaves_bind fun e => ?_
        exact collate_from g (leaves_pure fun _ => trivial)
      · exact leaves_bind fun v => collate_from g (leaves_pure fun _ => trivial)
    · exact leaves_bind fun v => collate_from g (leaves_pure fun _ => trivial)
    · exact collate_from g leaves_fail

theorem parseAccess_none {tokens rest : List Lexeme}
    (run : parseAccess g tokens = .ok (none, rest)) : rest = tokens := by
  obtain ⟨dot, m, here, run⟩ := bind_ok.mp run
  rw [isAt_zero] at here
  cases here
  split at run
  · obtain ⟨star, m, here, run⟩ := bind_ok.mp run
    cases here
    split at run
    · cases run
      rfl
    · obtain ⟨_, m', -, run⟩ := bind_ok.mp run
      obtain ⟨ident, m'', -, run⟩ := bind_ok.mp run
      cases run
  · obtain ⟨opened, m', here, run⟩ := bind_ok.mp run
    cases opened with
    | true =>
      obtain ⟨e, m'', -, run⟩ := bind_ok.mp run
      obtain ⟨_, m'', -, run⟩ := bind_ok.mp run
      cases run
    | false =>
      cases run
      exact eatIf_false here

theorem parseAccesses_nil {tokens rest : List Lexeme}
    (run : parseAccesses g tokens = .ok ([], rest)) : rest = tokens := by
  obtain ⟨accesses, m, here, run⟩ := bind_ok.mp run
  dsimp only at run
  split at run
  · obtain ⟨_, m', failed, -⟩ := bind_ok.mp run
    cases failed
  · cases run
    exact repeated_nil (fun _ => parseAccess_none g) here

/-- What stands in front of the operators of an expression. -/
theorem parseDotted_from : (parseDotted g).Leaves (OperandFrom g) := by
  intro tokens e rest run
  obtain ⟨start, _, ⟨⟩, run⟩ := bind_ok.mp run
  obtain ⟨operand, m, ran, run⟩ := bind_ok.mp run
  obtain ⟨accesses, m', behind, run⟩ := bind_ok.mp run
  have origin := parseOperand_from g _ _ _ _ ran
  have alone (run : (if accesses.isEmpty then pure operand else
      pure (accesses.foldl addAccess ((FrameBuilder.ofText "").operand operand)).expr : Parse Expr)
        m' = .ok (e, rest)) : OperandFrom g e rest := by
    cases accesses with
    | nil =>
      cases run
      rw [parseAccesses_nil g behind]
      exact origin
    | cons access accesses =>
      cases run
      trivial
  cases operand with
  | column qualifier first =>
    cases named : (nameParts? accesses).bind fun parts =>
        parts.getLast?.map fun last => (parts, last) with
    | none =>
      rw [named] at run
      exact alone run
    | some name =>
      rw [named] at run
      obtain ⟨called, m'', -, run⟩ := bind_ok.mp run
      cases called with
      | true => exact parseCall_from g _ _ _ _ run
      | false =>
        cases run
        trivial
  | _ => exact alone run

end Operands

section Infixes

/-- How tightly an operator binds that a parser looks for. -/
def Binds (p : Precedence) (level : Nat) : Infix → Prop
  | .binary op => op.isPlain = true → level = op.level p
  | .is => level = p.is
  | _ => True

theorem binds_operators (p : Precedence) :
    ∀ entry ∈ regularOperators p ++ wordOperators p, Binds p entry.2.1 (.binary entry.2.2) := by
  simp [regularOperators, wordOperators, Binds, BinaryOp.isPlain, BinaryOp.level]

theorem binds_lookup {p : Precedence} {entries : List (String × Nat × BinaryOp)} {text : String}
    {level : Nat} {op : BinaryOp}
    (inside : ∀ entry ∈ entries, entry ∈ regularOperators p ++ wordOperators p)
    (found : entries.lookup text = some (level, op)) : Binds p level (.binary op) := by
  obtain ⟨front, behind, rfl, -⟩ := List.lookup_eq_some_iff.mp found
  exact binds_operators p (text, level, op) (inside _ (by simp))

theorem peekInfix_binds (p : Precedence) :
    (peekInfix p).Leaves fun found _ => ∀ o ∈ found, Binds p o.1 o.2 := by
  have none' : (pure none : Parse (Option (Nat × Infix))).Leaves fun found _ =>
      ∀ o ∈ found, Binds p o.1 o.2 := leaves_pure fun _ => by rintro o ⟨⟩
  unfold peekInfix
  refine leaves_bind fun token => ?_
  split
  · split
    · exact leaves_pure fun _ => by rintro o ⟨⟩; trivial
    · rename_i text other
      refine leaves_pure fun _ o member => ?_
      obtain ⟨⟨level, op⟩, found, rfl⟩ := Option.map_eq_some_iff.mp member
      exact binds_lookup (fun entry => List.mem_append_left _) found
  · split
    · exact none'
    · split
      · rename_i found
        exact leaves_pure fun _ => by
          rintro o ⟨⟩
          exact binds_lookup (fun entry => List.mem_append_right _) found
      · repeat' first
          | exact none'
          | exact leaves_pure fun _ => by rintro o ⟨⟩; trivial
          | with_reducible refine leaves_bind fun _ => ?_
          | split
  · exact none'

theorem looks_peekInfix (p : Precedence) : (peekInfix p).Looks := by
  have among (keywords : List String) : (isOneOfAt 1 keywords).Looks :=
    (looks_peek 1).bind fun _ => looks_pure
  have word (keyword : String) : (isWordAt 1 keyword).Looks :=
    (looks_peek 1).bind fun _ => looks_pure
  have words : (wordsAt 1 ["TIME", "ZONE"]).Looks := wordsAt_keeps _ _
  unfold peekInfix
  repeat' first
    | exact looks_pure
    | with_reducible refine (looks_peek 0).bind fun _ => ?_
    | with_reducible refine (among _).bind fun _ => ?_
    | with_reducible refine (word _).bind fun _ => ?_
    | with_reducible refine words.bind fun _ => ?_
    | split

variable {g : Nested} {tokens rest : List Lexeme}

theorem keyword?_some {keyword : String} (word : keyword? tokens = some keyword) :
    ∃ text spaced more,
      tokens = ⟨.word text none, spaced⟩ :: more ∧ keywordText text = keyword := by
  cases tokens with
  | nil => cases word
  | cons lexeme more =>
    obtain ⟨token, spaced⟩ := lexeme
    cases token with
    | word text quote =>
      cases quote with
      | none => exact ⟨text, spaced, more, rfl, Option.some.inj word⟩
      | some quote => cases word
    | _ => cases word

/-- The words of a test for membership or for null bind as those tests do. -/
theorem peekInfix_isIn (p : Precedence) (word : keyword? tokens = some "IN") :
    peekInfix p tokens = .ok (some (p.between, .list), tokens) := by
  obtain ⟨text, spaced, more, rfl, same⟩ := keyword?_some word
  refine bind_of (peek_zero _) ?_
  simp only [next?_cons, Token.keyword?, same]
  rfl

theorem peekInfix_notIn (p : Precedence) (word : keyword? tokens = some "NOT")
    (behind : keyword? (tokens.drop 1) = some "IN") :
    peekInfix p tokens = .ok (some (p.between, .list), tokens) := by
  obtain ⟨text, spaced, more, rfl, same⟩ := keyword?_some word
  rw [List.drop_one, List.tail_cons] at behind
  refine bind_of (peek_zero _) ?_
  simp only [next?_cons, Token.keyword?, same]
  refine bind_of (isOneOfAt_one _ _ _) ?_
  rw [behind]
  rfl

theorem peekInfix_notNull (p : Precedence) (word : keyword? tokens = some "NOT")
    (behind : keyword? (tokens.drop 1) = some "NULL") :
    peekInfix p tokens = .ok (some (p.is, .list), tokens) := by
  obtain ⟨text, spaced, more, rfl, same⟩ := keyword?_some word
  rw [List.drop_one, List.tail_cons] at behind
  refine bind_of (peek_zero _) ?_
  simp only [next?_cons, Token.keyword?, same]
  refine bind_of (isOneOfAt_one _ _ _) ?_
  rw [behind]
  refine bind_of (isOneOfAt_one _ _ _) ?_
  rw [behind]
  refine bind_of (isWordAt_one _ _ _) ?_
  rw [behind]
  rfl

/-- Where an expression comes from that an operator at `level` made of the one in front of it. -/
def InfixFrom (g : Nested) (level : Nat) (left : Expr) : Expr → List Lexeme → Prop
  | .binary l op r, rest => l = left ∧
      (op.isPlain = true → level = op.level (precedence g.dialect)) ∧
      ∃ tokens, g.expr level tokens = .ok (r, rest)
  | .isNull _ e, _ => e = left ∧ level = (precedence g.dialect).is
  | .inList _ e items, _ => e = left ∧ level = (precedence g.dialect).between ∧
      (items ≠ [] ∨ g.dialect.hasEmptyInList = true) ∧
      ∃ tokens, g.query tokens = .error .unexpected
  | .nested _, _ | .unary .not _, _ => False
  | _, _ => True

variable {level next : Nat} {left e : Expr}

theorem parseBinary_from {op : BinaryOp} (binds : Binds (precedence g.dialect) next (.binary op)) :
    (parseBinary g next op left).Leaves (InfixFrom g next left) := by
  refine leaves_bind fun quantifier => ?_
  split
  · intro tokens e rest run
    obtain ⟨right, m, ran, same⟩ := bind_ok.mp run
    cases same
    exact ⟨rfl, binds, _, ran⟩
  · repeat' first
      | exact leaves_pure fun _ => trivial
      | with_reducible refine leaves_bind fun _ => ?_
      | split

theorem parseIs_from (is : next = (precedence g.dialect).is) :
    (parseIs g left).Leaves (InfixFrom g next left) := by
  unfold parseIs
  repeat' first
    | exact leaves_pure fun _ => ⟨rfl, is⟩
    | exact leaves_pure fun _ => trivial
    | exact leaves_fail
    | with_reducible refine leaves_bind fun _ => ?_
    | split

theorem parseIn_from (negated : Bool) (between : next = (precedence g.dialect).between) :
    (parseIn g negated left).Leaves (InfixFrom g next left) := by
  refine leaves_bind fun _ => ?_
  intro tokens e rest whole
  obtain ⟨found, m, tried, run⟩ := bind_ok.mp whole
  cases found with
  | some query =>
    obtain ⟨_, m', -, run⟩ := bind_ok.mp run
    cases run
    trivial
  | none =>
    obtain ⟨failed, -⟩ := attempt_failed tried
    obtain ⟨empty, m', opened, run⟩ := bind_ok.mp run
    cases empty with
    | true =>
      cases run
      exact ⟨rfl, between, .inr (eatIf_true opened), _, failed⟩
    | false =>
      obtain ⟨items, m'', list, run⟩ := bind_ok.mp run
      obtain ⟨first, others, _, rfl, -⟩ := commaList_ok list
      obtain ⟨_, _, -, run⟩ := bind_ok.mp run
      cases run
      exact ⟨rfl, between, .inl (List.cons_ne_nil _ _), _, failed⟩

theorem parseListInfix_from (peeked : peekInfix (precedence g.dialect) tokens =
      .ok (some (next, .list), tokens))
    (run : parseListInfix g left tokens = .ok (e, rest)) : InfixFrom g next left e rest := by
  have level {level : Nat} (known : peekInfix (precedence g.dialect) tokens =
      .ok (some (level, .list), tokens)) : next = level := by
    rw [known] at peeked
    cases peeked
    rfl
  obtain ⟨negated, m, word, behind⟩ := bind_ok.mp run
  obtain ⟨isNot, rfl⟩ := eatWord_ok word
  obtain ⟨matcher, m', match', later⟩ := bind_ok.mp behind
  cases matcher with
  | some keyword =>
    obtain ⟨pattern, _, -, same⟩ := bind_ok.mp later
    cases same
    trivial
  | none =>
    obtain rfl := eatOneOf_none match'
    obtain ⟨null, m'', isNull, rest⟩ := bind_ok.mp later
    cases null with
    | true =>
      cases rest
      cases negated with
      | false => cases isNull
      | true =>
        obtain ⟨null, -⟩ := eatWord_ok isNull
        refine ⟨rfl, level (peekInfix_notNull _ ?_ ?_)⟩
        · simpa using isNot.symm
        · simpa using null.symm
    | false =>
      obtain rfl := eatWordIf_false isNull
      obtain ⟨within, mi, isIn, last⟩ := bind_ok.mp rest
      cases within with
      | true =>
        obtain ⟨among, rfl⟩ := eatWord_ok isIn
        refine parseIn_from negated (level ?_) _ _ _ last
        cases negated with
        | false => exact peekInfix_isIn _ (by simpa using among.symm)
        | true => exact peekInfix_notIn _ (by simpa using isNot.symm) (by simpa using among.symm)
      | false =>
        refine (?_ : Parse.Leaves _ (InfixFrom g next left)) _ _ _ last
        simp only [Bool.false_eq_true, if_false]
        unfold parseBetween parsePattern
        repeat' first
          | exact leaves_pure fun _ => trivial
          | exact leaves_fail
          | with_reducible refine leaves_bind fun _ => ?_
          | split

theorem parseInfix_from {form : Infix} (binds : Binds (precedence g.dialect) next form)
    (peeked : peekInfix (precedence g.dialect) tokens = .ok (some (next, form), tokens))
    (run : parseInfix g next left form tokens = .ok (e, rest)) : InfixFrom g next left e rest := by
  cases form with
  | binary op => exact leaves_bind (fun _ => parseBinary_from binds) _ _ _ run
  | is => exact leaves_bind (fun _ => parseIs_from binds) _ _ _ run
  | list => exact parseListInfix_from peeked run
  | zone =>
    obtain ⟨_, m, -, run⟩ := bind_ok.mp run
    obtain ⟨zone, m', -, run⟩ := bind_ok.mp run
    cases run
    trivial
  | cast =>
    obtain ⟨_, m, -, run⟩ := bind_ok.mp run
    obtain ⟨type, m', -, run⟩ := bind_ok.mp run
    cases run
    trivial

theorem parseInfixes_some (run : parseInfixes g level left tokens = .ok (some e, rest)) :
    ∃ next form, peekInfix (precedence g.dialect) tokens = .ok (some (next, form), tokens) ∧
      level < next ∧ InfixFrom g next left e rest := by
  obtain ⟨found, m, peeked, run⟩ := bind_ok.mp run
  obtain rfl := (looks_peekInfix _).takes_none peeked
  cases found with
  | none => cases run
  | some o =>
    obtain ⟨next, form⟩ := o
    dsimp only at run
    split at run
    · rename_i tighter
      obtain ⟨e', m, goes, run⟩ := bind_ok.mp run
      cases run
      have binds := peekInfix_binds _ _ _ _ peeked (next, form) rfl
      exact ⟨next, form, peeked, tighter, parseInfix_from binds peeked goes⟩
    · cases run

theorem parseInfixes_none (run : parseInfixes g level left tokens = .ok (none, rest)) :
    rest = tokens ∧ Loose g.dialect level rest := by
  obtain ⟨found, m, peeked, run⟩ := bind_ok.mp run
  obtain rfl := (looks_peekInfix _).takes_none peeked
  cases found with
  | none =>
    cases run
    exact ⟨rfl, none, peeked, by rintro o ⟨⟩⟩
  | some o =>
    obtain ⟨next, form⟩ := o
    dsimp only at run
    split at run
    · obtain ⟨e', m, -, run⟩ := bind_ok.mp run
      cases run
    · rename_i looser
      cases run
      refine ⟨rfl, _, peeked, ?_⟩
      rintro _ ⟨⟩
      exact Nat.not_lt.mp looser

/-- An expression comes from an operand and the operators behind it, up to one that binds no
tighter than `level`. -/
theorem parseExprAbove_from {I : Expr → List Lexeme → Prop}
    (operand : ∀ e rest, OperandFrom g e rest → I e rest)
    (operator : ∀ left tokens next form e rest, I left tokens →
      peekInfix (precedence g.dialect) tokens = .ok (some (next, form), tokens) → level < next →
      InfixFrom g next left e rest → I e rest)
    (run : parseExprAbove g level tokens = .ok (e, rest)) :
    I e rest ∧ Loose g.dialect level rest := by
  obtain ⟨left, m, first, behind⟩ := bind_ok.mp run
  obtain ⟨start, _, ⟨⟩, goes⟩ := bind_ok.mp behind
  obtain ⟨m', holds, ends⟩ := iterate_ends (I := I) (fun left tokens e rest here step => by
      obtain ⟨next, form, peeked, tighter, origin⟩ := parseInfixes_some step
      exact operator left tokens next form e rest here peeked tighter origin)
    (operand _ _ (parseDotted_from g _ _ _ first)) goes
  obtain ⟨rfl, loose⟩ := parseInfixes_none ends
  exact ⟨holds, loose⟩

end Infixes

end SealedColumns.Sql

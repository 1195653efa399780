import SealedColumns.Sql.Text

/-!
What parsers give and leave, shown along their runs. A property of all that a parser gives is put
together from its parts; and what every statement has that the parser of statements gives, a text
has that is read as one statement.
-/
namespace SealedColumns.Sql

/-- Whatever a parser gives has the property, and so has what it leaves. -/
def Parse.Leaves {α : Type} (p : Parse α) (P : α → List Lexeme → Prop) : Prop :=
  ∀ tokens a rest, p tokens = .ok (a, rest) → P a rest

/-- Whatever a parser gives has the property. -/
abbrev Parse.Returns {α : Type} (p : Parse α) (P : α → Prop) : Prop := p.Leaves fun a _ => P a

namespace Parse

variable {α β : Type} {P : α → List Lexeme → Prop} {Q : β → List Lexeme → Prop}
  {tokens rest : List Lexeme}

theorem bind_ok {p : Parse α} {f : α → Parse β} {b : β} : (p >>= f) tokens = .ok (b, rest) ↔
    ∃ a m, p tokens = .ok (a, m) ∧ f a m = .ok (b, rest) := by
  constructor
  · intro run
    have step : (p >>= f) tokens = (p tokens >>= fun result => f result.1 result.2) := rfl
    rw [step] at run
    cases ran : p tokens with
    | error e =>
      rw [ran] at run
      cases run
    | ok result =>
      rw [ran] at run
      exact ⟨result.1, result.2, rfl, run⟩
  · rintro ⟨a, m, first, second⟩
    have step : (p >>= f) tokens = (p tokens >>= fun result => f result.1 result.2) := rfl
    rw [step, first]
    exact second

theorem leaves_pure {a : α} (holds : ∀ rest, P a rest) : (pure a : Parse α).Leaves P := by
  rintro tokens _ rest ⟨⟩
  exact holds _

theorem leaves_fail : (fail : Parse α).Leaves P := by
  rintro tokens a rest ⟨⟩

theorem Leaves.bind {p : Parse β} {f : β → Parse α} (first : p.Leaves Q)
    (second : ∀ b tokens, Q b tokens → ∀ a rest, f b tokens = .ok (a, rest) → P a rest) :
    (p >>= f).Leaves P := by
  intro tokens a rest run
  obtain ⟨b, m, ran, later⟩ := bind_ok.mp run
  exact second b m (first _ _ _ ran) a rest later

theorem Returns.bind {p : Parse β} {f : β → Parse α} {R : β → Prop} (first : p.Returns R)
    (second : ∀ b, R b → (f b).Leaves P) : (p >>= f).Leaves P :=
  Leaves.bind first fun b tokens holds a rest run => second b holds tokens a rest run

theorem leaves_bind {p : Parse β} {f : β → Parse α} (each : ∀ b, (f b).Leaves P) :
    (p >>= f).Leaves P := by
  intro tokens a rest run
  obtain ⟨b, m, -, later⟩ := bind_ok.mp run
  exact each b m a rest later

theorem leaves_none :
    (pure none : Parse (Option α)).Leaves fun found rest => ∀ a ∈ found, P a rest :=
  leaves_pure fun _ => by rintro a ⟨⟩

theorem leaves_some {p : Parse α} (each : p.Leaves P) :
    (p >>= fun a => pure (some a)).Leaves fun found rest => ∀ a ∈ found, P a rest := by
  refine each.bind fun a tokens holds found rest run => ?_
  cases run
  rintro _ ⟨⟩
  exact holds

theorem leaves_attempt {p : Parse α} (each : p.Leaves P) :
    (attempt p).Leaves fun found rest => ∀ a ∈ found, P a rest := by
  intro tokens found rest run
  unfold attempt at run
  split at run
  · rename_i a m ran
    cases run
    rintro _ ⟨⟩
    exact each _ _ _ ran
  · cases run
    rintro _ ⟨⟩
  · cases run

theorem leaves_orElse {p q : Parse α} (first : p.Leaves P) (second : q.Leaves P) :
    (orElse p q).Leaves P := by
  refine (leaves_attempt first).bind fun found tokens each a rest run => ?_
  cases found with
  | some b =>
    cases run
    exact each _ rfl
  | none => exact second _ _ _ run

/-- What holds at the start and is kept by every step holds at the end, where there is no more. -/
theorem iterate_ends {step : β → Parse (Option β)} {I : β → List Lexeme → Prop}
    (keeps : ∀ b tokens b' rest, I b tokens → step b tokens = .ok (some b', rest) → I b' rest)
    {fuel : Nat} {b b' : β} (start : I b tokens)
    (run : iterate step fuel b tokens = .ok (b', rest)) :
    ∃ m, I b' m ∧ step b' m = .ok (none, rest) := by
  induction fuel generalizing b tokens with
  | zero =>
    obtain ⟨found, m, ran, later⟩ := bind_ok.mp run
    cases found with
    | some _ => cases later
    | none =>
      cases later
      exact ⟨tokens, start, ran⟩
  | succ fuel ih =>
    obtain ⟨found, m, ran, later⟩ := bind_ok.mp run
    cases found with
    | some _ => exact ih (keeps _ _ _ _ start ran) later
    | none =>
      cases later
      exact ⟨tokens, start, ran⟩

theorem attempt_failed {p : Parse α} (run : attempt p tokens = .ok (none, rest)) :
    p tokens = .error .unexpected ∧ rest = tokens := by
  unfold attempt at run
  split at run
  · cases run
  · rename_i failed
    cases run
    exact ⟨failed, rfl⟩
  · cases run

theorem commaList_ok {item : Parse α} {as : List α}
    (run : commaList item tokens = .ok (as, rest)) :
    ∃ a others m, as = a :: others ∧ item tokens = .ok (a, m) := by
  obtain ⟨a, m, first, run⟩ := bind_ok.mp run
  obtain ⟨length, _, -, run⟩ := bind_ok.mp run
  obtain ⟨others, _, -, run⟩ := bind_ok.mp run
  cases run
  exact ⟨a, others, m, rfl, first⟩

theorem repeated_nil {step : Parse (Option α)}
    (keeps : ∀ m, step tokens = .ok (none, m) → m = tokens)
    (run : repeated step tokens = .ok ([], rest)) : rest = tokens := by
  obtain ⟨_, _, ⟨⟩, run⟩ := bind_ok.mp run
  cases tokens with
  | nil =>
    cases run
    rfl
  | cons lexeme tokens =>
    obtain ⟨found, m, here, run⟩ := bind_ok.mp run
    cases found with
    | none =>
      cases run
      exact keeps _ here
    | some a =>
      obtain ⟨others, m', -, run⟩ := bind_ok.mp run
      cases run

/-- It looks at the tokens, and neither takes one nor fails. -/
def Looks (p : Parse α) : Prop := ∀ tokens, ∃ a, p tokens = .ok (a, tokens)

theorem Looks.takes_none {p : Parse α} (looks : p.Looks) {a : α} (run : p tokens = .ok (a, rest)) :
    rest = tokens := by
  obtain ⟨a', known⟩ := looks tokens
  rw [known] at run
  cases run
  rfl

theorem looks_pure {a : α} : (pure a : Parse α).Looks := fun _ => ⟨a, rfl⟩

theorem Looks.bind {p : Parse β} {f : β → Parse α} (first : p.Looks)
    (second : ∀ b, (f b).Looks) : (p >>= f).Looks := by
  intro tokens
  obtain ⟨b, here⟩ := first tokens
  obtain ⟨a, later⟩ := second b tokens
  exact ⟨a, bind_ok.mpr ⟨b, tokens, here, later⟩⟩

theorem looks_peek (ahead : Nat) : (peek ahead).Looks := fun _ => ⟨_, rfl⟩

end Parse

open Parse

variable {P : Statement → Prop}

/-- What inserts and queries have, and all other statements, every statement has that is read. -/
theorem parseStatement_each {g : Nested}
    (insert : ∀ replace resolution,
      (parseInsert g replace resolution).Returns fun x => P (.insert x))
    (query : g.query.Returns fun q => P (.query q)) (update : ∀ x, P (.update x))
    (delete : ∀ x, P (.delete x)) (explain : ∀ words t, P (.explain words t))
    (other : ∀ tables frame operands query, P (.other tables frame operands query)) :
    (parseStatement g).Returns P := by
  have insertion : (parseInsertStatement g).Returns fun x => P (.insert x) :=
    leaves_bind fun resolution => insert false resolution
  have replacement : (parseReplace g).Returns fun x => P (.insert x) := by
    unfold parseReplace
    split
    · exact insert true none
    · exact insert true none
    · exact insert false (some "REPLACE")
    · exact leaves_fail
  have keyword (keyword : String) : (parseKeywordStatement g keyword).Returns P := by
    unfold parseKeywordStatement parseExplain parseCreate parseDrop parseTruncate
      parseTableDefinition parseViewDefinition wordsStatement
    repeat' first
      | exact Returns.bind insertion fun x holds => leaves_pure fun _ => holds
      | exact Returns.bind replacement fun x holds => leaves_pure fun _ => holds
      | exact Returns.bind query fun q holds => leaves_pure fun _ => holds
      | with_reducible refine leaves_bind fun _ => ?_
      | exact leaves_fail
      | split
      | exact leaves_pure fun _ => update _
      | exact leaves_pure fun _ => delete _
      | exact leaves_pure fun _ => explain _ _
      | exact leaves_pure fun _ => other _ _ _ _
  refine leaves_bind fun token? => ?_
  split
  · exact Returns.bind query fun q holds => leaves_pure fun _ => holds
  · split
    · exact keyword _
    · exact leaves_fail
  · exact leaves_fail

theorem parseStatementsUpTo_each {g : Nested} (each : g.statement.Returns P) (fuel : Nat)
    (first : Bool) : (parseStatementsUpTo g fuel first).Returns fun ts => ∀ t ∈ ts, P t := by
  induction fuel generalizing first with
  | zero => exact leaves_pure fun _ _ member => absurd member List.not_mem_nil
  | succ fuel ih =>
    unfold parseStatementsUpTo
    repeat' first
      | exact Returns.bind each fun t one => Returns.bind (ih false) fun ts rest =>
          leaves_pure fun _ => List.forall_mem_cons.mpr ⟨one, rest⟩
      | exact leaves_pure fun _ _ member => absurd member List.not_mem_nil
      | exact leaves_fail
      | with_reducible refine leaves_bind fun _ => ?_
      | split

theorem of_parse {d : Dialect} {sql : String} {t : Statement}
    (each : (nestedParsers d depthLimit).statement.Returns P)
    (parsed : Statement.parse d sql = .ok t) : P t := by
  have one : parseOne d sql = .ok t := by
    unfold Statement.parse at parsed
    split at parsed
    · rename_i t' known
      cases parsed
      exact known
    · cases parsed
    · cases parsed
  have listed : parseStatements? d sql = some [t] := by
    unfold parseOne at one
    split at one
    · cases one
    · rename_i t' known
      cases one
      exact known
    · cases one
  unfold parseStatements? at listed
  obtain ⟨tokens, -, listed⟩ := Option.bind_eq_some_iff.mp listed
  split at listed
  · rename_i ts rest run
    cases listed
    exact parseStatementsUpTo_each each _ _ _ _ _ run t List.mem_cons_self
  · cases listed

end SealedColumns.Sql

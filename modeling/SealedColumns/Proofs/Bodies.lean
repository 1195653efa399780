import SealedColumns.Proofs.Parsing

/-!
Where the body of a query comes from that is read: the filter of a SELECT is an expression that was
parsed, and a list of rows has a row at least.
-/
namespace SealedColumns.Sql

open Parse

section

variable (g : Nested)

def FilterFrom (filter : Option Expr) : Prop :=
  ∀ e ∈ filter, ∃ tokens rest, parseExpr g tokens = .ok (e, rest)

def BodyFrom : SetExpr → Prop
  | .select s => FilterFrom g s.filter
  | .values _ rows => rows ≠ []
  | _ => True

/-- The same of the query that a statement is, and of the source of an INSERT. -/
def StatementFrom : Statement → Prop
  | .query q => BodyFrom g q.body
  | .insert x => ∀ q ∈ x.source, BodyFrom g q.body
  | _ => True

theorem parseOptional_from (keyword : String) :
    (parseOptional keyword (parseExpr g)).Returns (FilterFrom g) := by
  refine leaves_bind fun found => ?_
  split
  · intro tokens filter rest run
    obtain ⟨e, m, ran, same⟩ := bind_ok.mp run
    cases same
    rintro _ ⟨⟩
    exact ⟨tokens, _, ran⟩
  · exact leaves_pure fun _ => by rintro e ⟨⟩

theorem selectOf_from (order : SelectOrder) (quantifiers : List Expr) (items : List SelectItem)
    (sources : List FromItem) :
    (selectOf g order quantifiers items sources).Returns fun s => FilterFrom g s.filter :=
  Returns.bind (parseOptional_from g "WHERE") fun _ from' =>
    leaves_bind fun _ => leaves_bind fun _ => leaves_bind fun _ => leaves_pure fun _ => from'

theorem parseSelectBody_from (leading : Option (List FromItem)) :
    (parseSelectBody g leading).Returns fun s => FilterFrom g s.filter := by
  unfold parseSelectBody
  repeat' first
    | exact selectOf_from g _ _ _ _
    | with_reducible refine leaves_bind fun _ => ?_
    | split
    | dsimp only

theorem parseSelect_from : (parseSelect g).Returns fun s => FilterFrom g s.filter := by
  refine leaves_bind fun first => ?_
  split
  · refine leaves_bind fun sources => leaves_bind fun select => ?_
    split
    · exact parseSelectBody_from g _
    · exact leaves_pure fun _ => by rintro e ⟨⟩
  · exact parseSelectBody_from g none

theorem parseValues_from : (parseValues g).Returns (BodyFrom g) := by
  intro tokens body rest run
  obtain ⟨rows, m, list, same⟩ := bind_ok.mp run
  obtain ⟨row, rows, _, rfl, -⟩ := commaList_ok list
  cases same
  exact List.cons_ne_nil _ _

theorem parseSetOperand_from : (parseSetOperand g).Returns (BodyFrom g) := by
  refine leaves_bind fun select => ?_
  split
  · exact Returns.bind (parseSelect_from g) fun s from' => leaves_pure fun _ => from'
  · refine leaves_bind fun nested => ?_
    split
    · exact leaves_bind fun q => leaves_bind fun _ => leaves_pure fun _ => trivial
    · refine leaves_bind fun values => ?_
      split
      · exact parseValues_from g
      · exact leaves_fail

theorem parseSetExpr_from : (parseSetExpr g).Returns (BodyFrom g) := by
  intro tokens body rest run
  obtain ⟨left, m, first, later⟩ := bind_ok.mp run
  obtain ⟨start, _, ⟨⟩, goes⟩ := bind_ok.mp later
  have operation (right : Nat → Parse SetExpr) (left : SetExpr) :
      (parseSetOperations right 0 left).Returns fun found => ∀ body ∈ found, BodyFrom g body := by
    unfold parseSetOperations
    repeat' first
      | exact leaves_none
      | exact leaves_pure fun _ => by rintro body ⟨⟩; trivial
      | with_reducible refine leaves_bind fun _ => ?_
      | split
  obtain ⟨_, from', -⟩ := iterate_ends (I := fun body _ => BodyFrom g body)
    (fun left tokens body rest _ step => operation _ left _ _ _ step body rfl)
    (parseSetOperand_from g _ _ _ first) goes
  exact from'

theorem parseQuery_from {write : Parse (Option SetExpr)}
    (writes : write.Returns fun found => ∀ body ∈ found, BodyFrom g body) :
    (parseQuery g write).Returns fun q => BodyFrom g q.body := by
  refine leaves_bind fun ctes => Returns.bind writes fun found each => ?_
  cases found with
  | some body => exact leaves_pure fun _ => each body rfl
  | none =>
    refine Returns.bind (parseSetExpr_from g) fun body from' => ?_
    exact leaves_bind fun _ => leaves_bind fun _ => leaves_bind fun _ => leaves_bind fun _ =>
      leaves_pure fun _ => from'

theorem parseWrite_from : (parseWrite g).Returns fun found => ∀ body ∈ found, BodyFrom g body := by
  unfold parseWrite
  repeat' first
    | exact leaves_none
    | exact leaves_some (leaves_bind fun _ => leaves_pure fun _ => trivial)
    | exact leaves_pure fun _ => by rintro body ⟨⟩; trivial
    | with_reducible refine leaves_bind fun _ => ?_
    | split

end

section

variable {d : Dialect} {n : Nat}

theorem query_from : (nestedParsers d (n + 1)).query.Returns fun q =>
    BodyFrom (nestedParsers d n) q.body :=
  parseQuery_from _ (parseWrite_from _)

theorem parseInsert_from (replace : Bool) (resolution : Option String) :
    (parseInsert (nestedParsers d (n + 1)) replace resolution).Returns fun x =>
      ∀ q ∈ x.source, BodyFrom (nestedParsers d n) q.body := by
  unfold parseInsert
  simp only [pure_bind]
  repeat' first
    | with_reducible refine Returns.bind query_from fun _ from' => ?_
    | with_reducible refine leaves_bind fun _ => ?_
    | split
    | exact leaves_pure fun _ => by rintro q ⟨⟩; assumption
    | exact leaves_pure fun _ => by rintro q ⟨⟩

theorem parse_from {sql : String} {t : Statement} (parsed : Statement.parse d sql = .ok t) :
    StatementFrom (nestedParsers d 48) t :=
  of_parse (parseStatement_each parseInsert_from query_from (fun _ => trivial)
    (fun _ => trivial) (fun _ _ => trivial) fun _ _ _ _ => trivial) parsed

end

end SealedColumns.Sql

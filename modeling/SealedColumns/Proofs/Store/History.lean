import SealedColumns.Proofs.Denotation
import SealedColumns.Proofs.Store.Call

/-!
Histories. Whatever calls follow each other, the sealed store gives the answers of the plain one: a
store behind an interceptor cannot be told from a store without, as long as what is written into
its texts is plain. A text with two quotes side by side comes back with one.
-/
namespace SealedColumns.Store

open Sql Sealing

/-- Serves calls one after the other, and collects the answers. -/
def serve {σ : Type} (step : Call → σ → Option (σ × QueryResult)) :
    List Call → σ → Option (σ × List QueryResult)
  | [], s => some (s, [])
  | call :: calls, s => do
    let (s, result) ← step call s
    let (s, results) ← serve step calls s
    some (s, result :: results)

def plainStep (d : Dialect) (table : String) (call : Call) (rows : Table) :
    Option (Table × QueryResult) :=
  execute d table call.bound rows

/-- The store behind an interceptor: it carries out the text that is prepared, and its result is
decrypted. -/
def sealedStep (i : Interceptor) (table : String) (call : Call) (s : Table × Supply) :
    Option ((Table × Supply) × QueryResult) :=
  let prepared := i.prepare call.statement call.bound s.2
  match execute i.dialect table prepared.1.bound s.1 with
  | some (rows, result) =>
    some ((rows, prepared.2.2), (i.fetch prepared.1.invocation result).value)
  | none => none

/-- The answer to a request with the sensitive cells as texts. -/
def asTexts (columns : List SensitiveColumn) (r : Request Entry) : QueryResult → QueryResult
  | .rows rows => .rows (rows.map (textsAt (aliased columns r)))
  | result => result

variable {i : Interceptor} {handler : Handler} {table : String} {columns : List SensitiveColumn}
  {used : String → Prop} {call : Call} {r : Request Entry} {supply : Supply} {plain sealed : Table}

theorem Makes.execute_plain (makes : Makes i table columns used call r) (rows : Table) :
    plainStep i.dialect table call rows = some ((r.bind (valuesOf call.bound)).run rows) := by
  simp only [plainStep, execute, makes.parsed, Except.toOption, Option.bind_eq_bind,
    Option.bind_some, r.ofStatement?_toStatement, makes.counted, if_true]

/-- The store reads the text that it is sent as the sealed request. -/
theorem Makes.execute_sealed (makes : Makes i table columns used call r)
    (spelled : Spelled i.dialect handler table columns) {r' : Request (Entry Nat)} {d : Draft}
    (passes : Passes (call.sealing i handler (r.toStatement table)) call.bound supply used table
      columns r.number r' d) (rows : Table) :
    execute i.dialect table (d.parameters.toBound (r'.toStatement table).restore.render) rows =
      some ((r'.bind (valuesOf
        (d.parameters.toBound (r'.toStatement table).restore.render))).run rows) := by
  have text := passes.reads spelled makes.parsed makes.admissible makes.legible
  have counted : (r'.toStatement table).restore.countAnonymous =
      d.parameters.mappings.length :=
    (passes.counted makes.counted).trans (List.length_map _).symm
  rw [r'.restore_toStatement] at text counted ⊢
  simp only [execute, Parameters.toBound, text, Except.toOption, counted, Option.bind_eq_bind,
    Option.bind_some, r'.restore.ofStatement?_toStatement, if_true, r'.bind_restore]

theorem fetch_value (guards : Guards i handler table columns) (invocation : Invocation)
    (result : QueryResult) : (i.fetch invocation result).value =
      (Rows.decrypt handler i.camelCase invocation.aliases result).value := by
  simp only [Interceptor.fetch, guards.handler]
  split <;> rfl

theorem Supply.Fresh.later {bound : BoundStatement} {later : Supply} (fresh : supply.Fresh bound)
    (names : later.name = supply.name) (named : supply.named ≤ later.named) :
    later.Fresh bound := by
  refine ⟨fun i j first second => ?_, fun i first => ?_, fun i first => ?_, fun i first => ?_⟩
  · rw [names]
    exact fresh.distinct i j (Nat.le_trans named first) (Nat.le_trans named second)
  · rw [names]
    exact fresh.plain i (Nat.le_trans named first)
  · rw [names]
    exact fresh.additional i (Nat.le_trans named first)
  · rw [names]
    exact fresh.roots i (Nat.le_trans named first)

/-- What one call preserves, and what it answers. -/
theorem step_simulates (makes : Makes i table columns used call r)
    (guards : Guards i handler table columns) (reliable : handler.Reliable)
    (spelled : Spelled i.dialect handler table columns)
    (injective : ∀ a b, used a → used b → handler.index a = handler.index b → a = b)
    (fresh : supply.Fresh call.bound)
    (mirrors : List.Forall₂ (Mirrors handler used columns) plain sealed) :
    ∃ plain' sealed' supply' result,
      plainStep i.dialect table call plain = some (plain', result) ∧
      sealedStep i table call (sealed, supply) =
        some ((sealed', supply'), asTexts columns r result) ∧
      List.Forall₂ (Mirrors handler used columns) plain' sealed' ∧
      supply'.name = supply.name ∧ supply.named ≤ supply'.named := by
  obtain ⟨r', d, passes, prepared⟩ := makes.prepared guards reliable fresh
  have requests := passes.sealed (r'.toStatement table).restore.render
  have carried := makes.execute_sealed spelled passes sealed
  have plainly := makes.execute_plain plain
  have aliases := passes.aliases
  rw [r.bind_number] at requests
  simp only [sealedStep, prepared, fetch_value guards, carried]
  generalize r'.bind (valuesOf _) = request at *
  cases r with
  | insert rowWord names rows =>
    obtain ⟨sealed', sealedRun, mirrors'⟩ := requests.insert_mirrors guards.layout mirrors
    refine ⟨_, sealed', d.supply, _, plainly, ?_, mirrors', passes.names, passes.named⟩
    rw [sealedRun]
    rfl
  | select items condition =>
    obtain ⟨-, selectable, -⟩ := makes.admissible
    obtain ⟨values, form⟩ : ∃ values, (Request.select items condition).bind (valuesOf call.bound) =
        .select items values := by
      cases condition <;> exact ⟨_, rfl⟩
    rw [form] at requests plainly
    obtain ⟨rows, sealedRows, given, plainRun, sealedRun⟩ :=
      requests.select_mirrors injective mirrors
    obtain ⟨distinct, properties⟩ := propertiesOf_spec d.aliases
    have listed : ∀ property, property ∈ Rows.propertiesOf d.aliases ↔
        property ∈ sensitiveOutputs columns items := fun property => by
      rw [properties, aliases.values, Request.number, aliased_thread]
      rfl
    have revealed := decryptRows_mirrors given selectable distinct listed i.camelCase
    refine ⟨plain, sealed, d.supply, .rows (rows.map (project items)),
      plainly.trans (congrArg some plainRun), ?_, mirrors, passes.names, passes.named⟩
    rw [sealedRun]
    simp only [Rows.decrypt, revealed, asTexts, aliased]

/-- What a whole history preserves, and what it answers. -/
theorem serve_simulates (guards : Guards i handler table columns) (reliable : handler.Reliable)
    (spelled : Spelled i.dialect handler table columns)
    (injective : ∀ a b, used a → used b → handler.index a = handler.index b → a = b)
    {served : List (Call × Request Entry)}
    (makes : ∀ pair ∈ served, Makes i table columns used pair.1 pair.2)
    (fresh : ∀ pair ∈ served, supply.Fresh pair.1.bound)
    (mirrors : List.Forall₂ (Mirrors handler used columns) plain sealed) :
    ∃ plain' sealed' supply' results,
      serve (plainStep i.dialect table) (served.map Prod.fst) plain = some (plain', results) ∧
      serve (sealedStep i table) (served.map Prod.fst) (sealed, supply) =
        some ((sealed', supply'),
          List.zipWith (asTexts columns) (served.map Prod.snd) results) ∧
      List.Forall₂ (Mirrors handler used columns) plain' sealed' := by
  -- On the calls. The invariant is that the sealed rows mirror the plain ones; names are only
  -- drawn, so what is fresh for a later call stays fresh.
  induction served generalizing plain sealed supply with
  | nil => exact ⟨plain, sealed, supply, [], rfl, rfl, mirrors⟩
  | cons pair served ih =>
    obtain ⟨call, r⟩ := pair
    rw [List.forall_mem_cons] at makes fresh
    obtain ⟨plain₁, sealed₁, supply₁, result, first, sealedFirst, mirrors₁, names, named⟩ :=
      step_simulates makes.1 guards reliable spelled injective fresh.1 mirrors
    have later : ∀ pair ∈ served, supply₁.Fresh pair.1.bound := fun pair member =>
      Supply.Fresh.later (fresh.2 pair member) names named
    obtain ⟨plain', sealed', supply', results, rest, sealedRest, mirrors'⟩ :=
      ih makes.2 later mirrors₁
    refine ⟨plain', sealed', supply', result :: results, ?_, ?_, mirrors'⟩
    · simp only [List.map_cons, serve, first, rest, Option.bind_eq_bind, Option.bind_some]
    · simp only [List.map_cons, serve, sealedFirst, sealedRest, Option.bind_eq_bind,
        Option.bind_some, List.zipWith_cons_cons]

/-- Behind an interceptor that replaces the columns of one table, a store with a reliable handler
answers every history of requests as the plain store does, sensitive cells as texts; and its rows
mirror the plain ones all along. Both stores read the texts that they are sent, and what sealing
writes into these texts is plain. -/
theorem sealed_store_simulates {c : Config} (layout : Layout table c.columns)
    (assembled : Interceptor.assemble c (some handler) = .ok i) (overwrite : c.overwrite = true)
    (replaced : c.writeSource = false) (reliable : handler.Reliable)
    (injective : ∀ a b, used a → used b → handler.index a = handler.index b → a = b)
    (spelled : Spelled i.dialect handler table c.columns) (supply : Supply)
    (served : List (Call × Request Entry))
    (makes : ∀ pair ∈ served, Makes i table c.columns used pair.1 pair.2)
    (fresh : ∀ pair ∈ served, supply.Fresh pair.1.bound) :
    ∃ plain sealed supply' results,
      serve (plainStep i.dialect table) (served.map Prod.fst) [] = some (plain, results) ∧
      serve (sealedStep i table) (served.map Prod.fst) ([], supply) =
        some ((sealed, supply'),
          List.zipWith (asTexts c.columns) (served.map Prod.snd) results) ∧
      List.Forall₂ (Mirrors handler used c.columns) plain sealed := by
  have guards : Guards i handler table c.columns := by
    unfold Interceptor.assemble at assembled
    cases dialect : Sql.Dialect.ofName c.dialect with
    | error fault =>
      rw [dialect] at assembled
      cases assembled
    | ok d =>
      rw [dialect] at assembled
      cases assembled
      exact ⟨layout, rfl, by rw [overwrite, replaced], rfl⟩
  exact serve_simulates guards reliable spelled injective makes fresh .nil

end SealedColumns.Store

namespace SealedColumns.Store.Sample

open Sql SealedColumns.Sample Text

/-- A handler that writes texts in base 64. -/
def encoding : Handler where
  encrypt plain supply := (.ok (encodeBase64 (encodeUtf8 plain)), supply)
  decrypt cipher :=
    match decodeBase64 cipher with
    | .error _ => .error .authentication
    | .ok bytes =>
      match decodeUtf8 bytes with
      | .error _ => .error .authentication
      | .ok plain => .ok plain
  index plain := .ok (encodeBase64 (encodeUtf8 plain))

def encoded : Interceptor := { interceptor with handler := some encoding }

def add : Call := ⟨mapped, bound⟩

def added : Request Entry := .insert false ["id", "email"] [[.placeholder none, .placeholder none]]

def find : Call :=
  ⟨⟨"users.find", .select, []⟩, ⟨"SELECT id, email FROM users WHERE email IN (?) OR NOT id = 8",
    [.ofProperty "email"], .object [("email", .string "a@x")], []⟩⟩

def found : Request Entry :=
  .select [⟨"id", none⟩, ⟨"email", none⟩]
    (some (.or (.atom (.among false "email" [.placeholder none]))
      (.not (.atom (.equal false false "id" (.number "8" false))))))

def served : List (Call × Request Entry) := [(add, added), (find, found)]

theorem layout : Layout "users" config.columns := by
  constructor <;> decide

theorem encoding_decrypts (plain : String) :
    encoding.decrypt (encodeBase64 (encodeUtf8 plain)) = .ok plain := by
  simp only [encoding, decodeBase64_encodeBase64, decodeUtf8_encodeUtf8]

theorem encoding_reliable : encoding.Reliable := by
  refine ⟨fun _ _ => ⟨_, rfl⟩, fun plain supply cipher encrypted => ?_, fun _ => ⟨_, rfl⟩⟩
  cases encrypted
  exact encoding_decrypts plain

theorem encoding_injective (a b : String) (same : encoding.index a = encoding.index b) : a = b := by
  have decrypted := congrArg encoding.decrypt (Except.ok.inj same)
  rw [encoding_decrypts, encoding_decrypts] at decrypted
  exact Except.ok.inj decrypted

theorem encoding_spelled : Spelled .generic encoding "users" config.columns := by
  refine ⟨by decide, by decide, fun {text cipher supply} encrypted => ?_, ?_⟩
  · cases encrypted
    exact isPlainLiteral_encodeBase64 _
  · rintro text _ ⟨⟩
    exact isPlainLiteral_encodeBase64 _

theorem parse_request {sql : String} {r : Request Entry}
    (accepted : ((Statement.parse .generic sql).toOption).bind (Request.ofStatement? "users") =
      some r) : Statement.parse .generic sql = .ok (r.toStatement "users") := by
  obtain ⟨t, parsed, request⟩ := Option.bind_eq_some_iff.mp accepted
  rw [← Request.toStatement_ofStatement? request]
  cases known : Statement.parse .generic sql with
  | error e =>
    rw [known] at parsed
    cases parsed
  | ok t' =>
    rw [known] at parsed
    cases parsed
    rfl

theorem makes : ∀ pair ∈ served,
    Makes encoded "users" config.columns (fun _ => True) pair.1 pair.2 := by
  have scalars : ∀ pair ∈ served, ∀ value ∈ valuesOf pair.1.bound, value.plain?.isSome := by
    decide
  have insertion : Admissible config.columns added := by
    refine ⟨?_, ?_, ?_⟩ <;> decide
  have selection : Admissible config.columns found := by
    refine ⟨by decide, ?_, ?_⟩
    · constructor <;> decide
    · rintro c same
      cases same
      decide
  have written : added.IsLegible .generic config.columns := by
    constructor <;> decide
  have compared : found.IsLegible .generic config.columns := by
    constructor <;> decide
  simp only [served, List.forall_mem_cons, List.not_mem_nil, false_imp_iff, implies_true,
    and_true] at scalars ⊢
  exact ⟨⟨rfl, by decide, rfl, parse_request (by decide +kernel), insertion, written, rfl,
      fun value member => Option.isSome_iff_exists.mp (scalars.1 value member), fun _ _ => trivial⟩,
    ⟨rfl, by decide, rfl, parse_request (by decide +kernel), selection, compared, rfl,
      fun value member => Option.isSome_iff_exists.mp (scalars.2 value member), fun _ _ => trivial⟩⟩

theorem fresh_served : ∀ pair ∈ served, supply.Fresh pair.1.bound := by
  simp only [served, List.forall_mem_cons, List.not_mem_nil, false_imp_iff, implies_true, and_true]
  refine ⟨fresh, fresh.distinct, fresh.plain, fun _ _ => rfl, fun i later m input => ?_⟩
  exact fresh.roots i later m (List.mem_cons_of_mem _ input)

end SealedColumns.Store.Sample

namespace SealedColumns.Store

open Sql SealedColumns.Sample Sample in
theorem sealed_store_simulates_users :
    Layout "users" config.columns ∧ encoding.Reliable ∧
    Spelled .generic encoding "users" config.columns ∧
    (∀ pair ∈ served, Makes encoded "users" config.columns (fun _ => True) pair.1 pair.2) ∧
    (∀ pair ∈ served, supply.Fresh pair.1.bound) ∧
    ∃ plain sealed supply' results,
      serve (plainStep .generic "users") [add, find] [] = some (plain, results) ∧
      serve (sealedStep encoded "users") [add, find] ([], supply) =
        some ((sealed, supply'), List.zipWith (asTexts config.columns) [added, found] results) ∧
      List.Forall₂ (Mirrors encoding (fun _ => True) config.columns) plain sealed :=
  ⟨layout, encoding_reliable, encoding_spelled, makes, fresh_served,
    sealed_store_simulates layout rfl rfl rfl encoding_reliable
      (fun a b _ _ => encoding_injective a b) encoding_spelled supply served makes fresh_served⟩

end SealedColumns.Store

namespace SealedColumns.Store.Sample

open Sql SealedColumns.Sample

/-- A row whose text has two quotes side by side. -/
def addDoubled : Call := ⟨mapped, doubledQuote⟩

def addedDoubled : Request Entry := .insert false ["email"] [[.string "a''b"]]

def list : Call := ⟨⟨"users.list", .select, []⟩, .ofSql "SELECT email FROM users"⟩

def listed : Request Entry := .select [⟨"email", none⟩] none

/-- The texts in a column of all the rows that a history answers. -/
def textsIn (column : String) {σ : Type} (served : Option (σ × List QueryResult)) :
    Option (List (Option (Option String))) :=
  served.map fun (_, results) => results.flatMap fun
    | .rows rows => rows.map fun
      | .object row => (cellOf row column).plain?
      | _ => none
    | _ => []

theorem reliable : handler.Reliable := by
  refine ⟨fun _ _ => ⟨_, rfl⟩, fun plain supply cipher encrypted => ?_, fun _ => ⟨_, rfl⟩⟩
  cases encrypted
  simp [handler, String.toList_append]

theorem injective (a b : String) (same : handler.index a = handler.index b) : a = b := by
  have texts := congrArg String.toList (Except.ok.inj same)
  simp only [String.toList_append, List.append_cancel_left_eq] at texts
  exact String.toList_injective texts

end SealedColumns.Store.Sample

namespace SealedColumns.Store

open Sql SealedColumns.Sample Sample in
/-- A handler need not write plain texts. The literal of the ciphertext is printed with its two
quotes as they are, the store reads one of them, and what comes back is another text. -/
theorem sealed_store_loses_quote :
    config.validate = .ok () ∧ Layout "users" config.columns ∧ handler.Reliable ∧
    (∀ a b, handler.index a = handler.index b → a = b) ∧
    Statement.parse .generic addDoubled.bound.sql = .ok (addedDoubled.toStatement "users") ∧
    Admissible config.columns addedDoubled ∧
    Statement.parse .generic list.bound.sql = .ok (listed.toStatement "users") ∧
    Admissible config.columns listed ∧
    textsIn "email" (serve (plainStep .generic "users") [addDoubled, list] []) =
      some [some (some "a''b")] ∧
    textsIn "email" (serve (sealedStep interceptor "users") [addDoubled, list] ([], supply)) =
      some [some (some "a'b")] := by
  have insertion : Admissible config.columns addedDoubled := by
    refine ⟨?_, ?_, ?_⟩ <;> decide
  have selection : Admissible config.columns listed := by
    refine ⟨by decide, ?_, ?_⟩
    · constructor <;> decide
    · rintro c ⟨⟩
  refine ⟨?_, layout, reliable, injective, parse_request (by decide +kernel), insertion,
    parse_request (by decide +kernel), selection, ?_, ?_⟩ <;> decide +kernel

end SealedColumns.Store

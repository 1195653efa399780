import SealedColumns.Config.File
import SealedColumns.Interceptor

/-!
The commands of the program: making and rotating keys, showing how a statement is sealed, and
decrypting rows. A command runs on the files and the supply that it is given.
-/
namespace SealedColumns

inductive Command where
  | keygen (output : String)
  | rotate (keyDirectory : String)
  | seal (config id : String) (kind : StatementKind) (sql : String) (mappings : List String)
      (params : String) (resultMap : List String)
  | decrypt (config rows : String) (columns : List String)
deriving DecidableEq, Repr

namespace Command

/-- An option of a command: its long name, its letter, whether it may be repeated, and whether its
value is a path, which may not be empty. -/
structure OptionRule where
  name : String
  letter : Option Char
  isList : Bool
  isPath : Bool

abbrev Given := List (String × String)

def looksLikeOption (word : String) : Bool :=
  match word.toList with
  | '-' :: _ :: _ => true
  | _ => false

/-- An option that a word starts with its long name, and the value behind an equals sign. -/
def longOption? (rules : List OptionRule) (word : String) :
    Option (OptionRule × Option String) := do
  let rest ← Text.dropHead? ['-', '-'] word.toList
  let (name, value) := match Text.splitFirst '=' (String.ofList rest) with
    | some (name, value) => (name, some value)
    | none => (String.ofList rest, none)
  let rule ← rules.find? (·.name == name)
  some (rule, value)

/-- An option that a word starts with its letter, and the value right behind it. -/
def letterOption? (rules : List OptionRule) (word : String) :
    Option (OptionRule × Option String) := do
  match word.toList with
  | '-' :: letter :: rest =>
    let rule ← rules.find? (·.letter == some letter)
    let value := match rest with
      | [] => none
      | '=' :: value => some (String.ofList value)
      | value => some (String.ofList value)
    some (rule, value)
  | _ => none

/-- The words of a command as options. A value that stands by itself must not look like an
option; two hyphens alone may end the words. -/
def options? (rules : List OptionRule) : List String → Option Given
  | [] => some []
  | word :: words =>
    match (longOption? rules word).or (letterOption? rules word) with
    | some (rule, some value) => (options? rules words).map ((rule.name, value) :: ·)
    | some (rule, none) =>
      match words with
      | [] => none
      | value :: rest =>
        if looksLikeOption value then none
        else (options? rules rest).map ((rule.name, value) :: ·)
    | none => if word == "--" && words.isEmpty then some [] else none

/-- Options that are no lists are given once at most, and paths are not empty. -/
def obeys (given : Given) (rule : OptionRule) : Bool :=
  let values := given.filter fun g => g.1 == rule.name
  (rule.isList || values.length ≤ 1) && !(rule.isPath && values.any fun g => g.2 == "")

def listOf (given : Given) (name : String) : List String :=
  (given.filter fun g => g.1 == name).flatMap fun g =>
    (Text.splitAll ',' g.2.toList).map String.ofList

def readOptions? (rules : List OptionRule) (words : List String) : Option Given := do
  let given ← options? rules words
  if rules.all (obeys given) then some given else none

def single (name : String) (letter : Option Char) : OptionRule := ⟨name, letter, false, false⟩

def path (name : String) (letter : Option Char) : OptionRule := ⟨name, letter, false, true⟩

def list (name : String) : OptionRule := ⟨name, none, true, false⟩

def defaultDirectory : String := "./keys"

def keygen? (words : List String) : Option Command := do
  let given ← readOptions? [path "output" (some 'o')] words
  some (.keygen ((given.lookup "output").getD defaultDirectory))

def rotate? (words : List String) : Option Command := do
  let given ← readOptions? [path "key-dir" none] words
  some (.rotate ((given.lookup "key-dir").getD defaultDirectory))

def seal? (words : List String) : Option Command := do
  let given ← readOptions?
    [path "config" (some 'c'), single "statement-id" none, single "kind" none, single "sql" none,
      list "mapping", single "params" none, list "result-map"] words
  let config ← given.lookup "config"
  let id ← given.lookup "statement-id"
  let sql ← given.lookup "sql"
  let kind ← (StatementKind.ofName ((given.lookup "kind").getD "select")).toOption
  some (.seal config id kind sql (listOf given "mapping") ((given.lookup "params").getD "\x7b\x7d")
    (listOf given "result-map"))

def decrypt? (words : List String) : Option Command := do
  let given ← readOptions? [path "config" (some 'c'), single "rows" none, list "columns"] words
  let config ← given.lookup "config"
  let rows ← given.lookup "rows"
  let _ ← given.lookup "columns"
  some (.decrypt config rows (listOf given "columns"))

def ofWords? : List String → Option Command
  | "keygen" :: words => keygen? words
  | "rotate" :: words => rotate? words
  | "rewrite" :: words => seal? words
  | "decrypt" :: words => decrypt? words
  | _ => none

end Command

inductive CommandError where
  | configuration (fault : ConfigFault)
  | key (cause : KeyError)
  | directory (path : String)
  | config (path : String)
  | disabled (path : String)
  | params
  | rows
  | pair (entry : String)
  | undecrypted (count : Nat)
deriving DecidableEq, Repr

def CommandError.message : CommandError → String
  | .configuration fault => (Error.configuration fault).message
  | .key cause => cause.message
  | .directory path => "failed to initialize " ++ path
  | .config path => "failed to load " ++ path
  | .disabled path => path ++ " has encryption disabled"
  | .params => "--params is not valid JSON"
  | .rows => "--rows must be a JSON array"
  | .pair entry => "expected `name=property`, got `" ++ entry ++ "`"
  | .undecrypted count => s!"{count} value(s) could not be decrypted"

namespace Command

structure Result where
  output : String
  log : List Event
  error : Option CommandError

def Result.exitCode (r : Result) : Nat := if r.error.isSome then 1 else 0

def failed (e : CommandError) : Result := ⟨"", [], some e⟩

def printed (line : String) : Result := ⟨line ++ "\n", [], none⟩

/-- A name and a property with an equals sign between them, blanks around them left out. -/
def pair (entry : String) : Except CommandError (String × String) :=
  match Text.splitFirst '=' entry with
  | some (name, property) => .ok (Text.trim name, Text.trim property)
  | none => .error (.pair entry)

def registry (volume : Volume) : Registry := Registry.default.withDirectories volume

/-- The interceptor of a configuration file, which has to be enabled, and what building it logs. -/
def loadInterceptor (volume : Volume) (path : String) :
    Except CommandError (Interceptor × List Event) := do
  match Config.load volume path with
  | .error _ => throw (.config path)
  | .ok c =>
    match Interceptor.ofConfig c (registry volume) with
    | .error fault => throw (.configuration fault)
    | .ok i => if i.isEnabled then return (i, Interceptor.openingLog c) else throw (.disabled path)

def runKeygen (output : String) : Keep Result := do
  let made ← tryCatch (some <$> KeyDirectory.make output) fun _ => pure none
  match made with
  | none => return failed (.directory output)
  | some d =>
    match d.currentId (← Keep.volume) with
    | .error cause => return failed (.key cause)
    | .ok id => return printed ("Initialized key directory " ++ output ++ " with key " ++ id)

def runRotate (directory : String) : Keep Result := do
  let d ← MonadExcept.ofExcept (KeyDirectory.open? (← Keep.volume) directory)
  let id ← d.rotate
  return printed ("Current key is now " ++ id)

/-- Runs a command on keys; a failure of the keys becomes the result. -/
def runKeep (keep : Keep Result) (s : KeyStore) : Result × KeyStore :=
  match keep.run s with
  | (.ok result, s) => (result, s)
  | (.error cause, s) => (failed (.key cause), s)

def preparedJson (p : Prepared) : Json :=
  .object [("additionalParameters", .object p.bound.additional),
    ("decrypt", .object (p.invocation.aliases.map fun (label, property) =>
      (label, .string property))),
    ("parameters", .array (p.bound.mappings.map fun m => .string m.property)),
    ("rewritten", .boolean p.isSealed), ("sql", .string p.bound.sql)]

/-- The statement and its parameters, as the options of a command give them. -/
def boundOf (id : String) (kind : StatementKind) (sql : String) (mappings : List String)
    (params : String) (resultMap : List String) :
    Except CommandError (MappedStatement × BoundStatement) := do
  let pairs ← resultMap.mapM pair
  match Json.parse? params with
  | none => throw .params
  | some object =>
    let map : ResultMap := ⟨"cli", pairs.map fun (column, property) => ⟨column, property⟩⟩
    return (⟨id, kind, [map]⟩, ⟨sql, mappings.map ParameterMapping.ofProperty, object, []⟩)

def runSeal (config id : String) (kind : StatementKind) (sql : String) (mappings : List String)
    (params : String) (resultMap : List String) (s : KeyStore) : Result × KeyStore :=
  let input := do
    let (i, opening) ← loadInterceptor s.volume config
    return (i, opening, ← boundOf id kind sql mappings params resultMap)
  match input with
  | .error e => (failed e, s)
  | .ok (i, opening, statement, bound) =>
    let (prepared, log, supply) := i.prepare statement bound s.supply
    (⟨(preparedJson prepared).pretty ++ "\n", opening ++ log, none⟩, { s with supply := supply })

def rowsOf (rows : String) : Except CommandError (List Json) :=
  match Json.parse? rows with
  | some (.array items) => .ok items
  | _ => .error .rows

def runDecrypt (config rows : String) (columns : List String) (volume : Volume) : Result :=
  let input := do
    let (i, opening) ← loadInterceptor volume config
    let items ← rowsOf rows
    return (i, opening, items, Members.ofList (← columns.mapM pair))
  match input with
  | .error e => failed e
  | .ok (i, opening, items, aliases) =>
    let outcome := i.fetch ⟨"cli.decrypt", aliases⟩ (.rows items)
    let output := match outcome.value with
      | .rows items => (Json.array items).pretty ++ "\n"
      | _ => ""
    let failures := outcome.report.failed
    ⟨output, opening ++ outcome.log, if failures = 0 then none else some (.undecrypted failures)⟩

def run (c : Command) (s : KeyStore) : Result × KeyStore :=
  match c with
  | .keygen output => runKeep (runKeygen output) s
  | .rotate directory => runKeep (runRotate directory) s
  | .seal config id kind sql mappings params resultMap =>
    runSeal config id kind sql mappings params resultMap s
  | .decrypt config rows columns => (runDecrypt config rows columns s.volume, s)

/-- The files and directories that a command may look into, as far as the files read so far
tell. -/
def paths (c : Command) (volume : Volume) : List String :=
  match c with
  | .keygen output => [output]
  | .rotate directory => [directory]
  | .seal config _ _ _ _ _ _ | .decrypt config _ _ =>
    match Config.load volume config with
    | .ok loaded => config :: (loaded.handlerOptions.get? "keyDir").toList
    | .error _ => [config]

end Command

end SealedColumns

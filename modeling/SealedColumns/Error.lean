import SealedColumns.Text.Hex
import SealedColumns.Volume

/-!
Everything that can go wrong, by cause, and the text that reports it.
-/
namespace SealedColumns

def keySize : Nat := 32

inductive Secret where
  | masterKey
  | pepper
  | retiredKey
deriving DecidableEq, Repr

def Secret.name : Secret → String
  | .masterKey => "master key"
  | .pepper => "pepper"
  | .retiredKey => "retired key"

inductive MaterialFault where
  | notHex (secret : Secret) (cause : Text.HexError)
  | wrongLength (secret : Secret) (length : Nat)
  | wrongFileSize (path : String) (size : Nat)
  | badKeyId (id : String)
deriving DecidableEq, Repr

def MaterialFault.message : MaterialFault → String
  | .notHex secret cause => s!"{secret.name} is not hex: {cause.message}"
  | .wrongLength secret length => s!"{secret.name} must be {keySize} bytes, got {length}"
  | .wrongFileSize path size => s!"{path} must hold {keySize} bytes, found {size}"
  | .badKeyId id => "invalid key id `" ++ id ++ "`"

inductive CreationFault where
  | noDirectory (path : String)
  | alreadyInitialized (path : String)
  | keyExists (id : String)
deriving DecidableEq, Repr

def CreationFault.message : CreationFault → String
  | .noDirectory path => "Key directory does not exist: " ++ path
  | .alreadyInitialized path => "Key directory is already initialized: " ++ path
  | .keyExists id => "key `" ++ id ++ "` already exists"

inductive KeyError where
  | notFound (id : String)
  | creation (fault : CreationFault)
  | noActiveKey
  | material (fault : MaterialFault)
  | pepper (cause : KeyError)
  | file (cause : FileError)
deriving DecidableEq, Repr

def KeyError.message : KeyError → String
  | .notFound id => "key not found: " ++ id
  | .creation fault => "key creation failed: " ++ fault.message
  | .noActiveKey => "no active key configured"
  | .material fault => "invalid key material: " ++ fault.message
  | .pepper cause => "pepper not available: " ++ cause.message
  | .file cause => "I/O error: " ++ cause.message

/-- How a handler fails. The reasons are texts, since handlers come from outside too. -/
inductive HandlerError where
  | encryption (reason : String)
  | decryption (reason : String)
  | authentication
  | index (reason : String)
  | option (name reason : String)
  | derivation
  | key (cause : KeyError)
deriving DecidableEq, Repr

def HandlerError.message : HandlerError → String
  | .encryption reason => "encryption failed: " ++ reason
  | .decryption reason => "decryption failed: " ++ reason
  | .authentication =>
    "authentication failed: ciphertext was modified or belongs to another key"
  | .index reason => "index generation failed: " ++ reason
  | .option name reason => "invalid handler option `" ++ name ++ "`: " ++ reason
  | .derivation => "key derivation failed"
  | .key cause => "key provider error: " ++ cause.message

inductive ColumnField where
  | table
  | source
  | target
  | index
deriving DecidableEq, Repr

def ColumnField.name : ColumnField → String
  | .table => "table"
  | .source => "sourceColumn"
  | .target => "targetColumn"
  | .index => "indexColumn"

/-- What is wrong with a configuration. Tables and columns are in normal form, except for the table
of an entry with an empty field. -/
inductive ConfigFault where
  | noHandlerClass
  | unknownDialect (name : String)
  | emptyField (table : String) (field : ColumnField)
  | sameColumns (table source : String)
  | configuredTwice (table source : String)
  | sourceAndDerived (table column : String)
  | unknownHandler (name : String)
  | handlerStart (name : String) (cause : HandlerError)
  | unknownKind (name : String)
deriving DecidableEq, Repr

def columnText (table column : String) : String := "`" ++ table ++ "." ++ column ++ "`"

def ConfigFault.message : ConfigFault → String
  | .noHandlerClass => "handlerClass is required when enabled"
  | .unknownDialect name => "unknown dialect `" ++ name ++ "`"
  | .emptyField table field =>
    "columnSecurityConfig entry for table `" ++ table ++ "` has an empty " ++ field.name
  | .sameColumns table source =>
    columnText table source ++ ": source, target and index columns must differ"
  | .configuredTwice table source => columnText table source ++ " is configured twice"
  | .sourceAndDerived table column =>
    columnText table column ++ " is both a source column and a derived column"
  | .unknownHandler name => "unknown handlerClass `" ++ name ++ "`"
  | .handlerStart name cause => "handler `" ++ name ++ "` failed to start: " ++ cause.message
  | .unknownKind name => "unknown statement kind `" ++ name ++ "`"

inductive SealFault where
  | placeholderCount (placeholders mappings : Nat)
  | sealedCount (placeholders mappings : Nat)
  | unboundPlaceholder (ordinal : Nat)
  | noMapping (ordinal : Nat)
  | structuredValue
  | unsupportedValue
deriving DecidableEq, Repr

def SealFault.message : SealFault → String
  | .placeholderCount placeholders mappings =>
    s!"statement has {placeholders} placeholders but {mappings} parameter mappings"
  | .sealedCount placeholders mappings =>
    s!"rewritten statement has {placeholders} placeholders but {mappings} parameter mappings"
  | .unboundPlaceholder ordinal => s!"no parameter mapping for placeholder {ordinal}"
  | .noMapping ordinal => s!"placeholder {ordinal} has no mapping"
  | .structuredValue => "structured parameter values cannot be encrypted"
  | .unsupportedValue => "unsupported value expression"

inductive Error where
  | badSyntax
  | statementCount (found : Nat)
  | configuration (fault : ConfigFault)
  | sealing (fault : SealFault)
  | handler (cause : HandlerError)
  | key (cause : KeyError)
  | file (cause : FileError)
  | json
  | toml
deriving DecidableEq, Repr

def Error.message : Error → String
  | .badSyntax => "parse failed: syntax error"
  | .statementCount found => s!"parse failed: expected one statement, found {found}"
  | .configuration fault => "invalid configuration: " ++ fault.message
  | .sealing fault => "transform failed: " ++ fault.message
  | .handler cause => "security handler error: " ++ cause.message
  | .key cause => "key provider error: " ++ cause.message
  | .file cause => "I/O error: " ++ cause.message
  | .json => "JSON error"
  | .toml => "TOML error"

end SealedColumns

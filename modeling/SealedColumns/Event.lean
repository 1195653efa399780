/-!
The events that are logged, each with its level and message.
-/
namespace SealedColumns

inductive Level where
  | trace
  | debug
  | info
  | warn
deriving DecidableEq, Repr

def Level.name : Level → String
  | .trace => "TRACE"
  | .debug => "DEBUG"
  | .info => "INFO"
  | .warn => "WARN"

inductive Event where
  | configured
  | noIdHeads
  | idNotMatched
  | kindPassed
  | noTable
  | statementSealed
  | sealingFailed
  | statementPassed
  | insertDerived
  | insertSource
  | insertWidth
  | columnSkipped
  | assignmentsDerived
  | assignmentSkipped
  | valueKept
  | valuesKept
deriving DecidableEq, Repr

namespace Event

def level : Event → Level
  | configured => .info
  | noIdHeads | sealingFailed | valueKept | valuesKept => .warn
  | idNotMatched | kindPassed | noTable | statementPassed => .trace
  | _ => .debug

def message : Event → String
  | configured => "security interceptor configured"
  | noIdHeads =>
    "statementIdPrefixes is empty, every statement will pass through unmodified"
  | idNotMatched => "no statement id prefix matches"
  | kindPassed => "statement kind not rewritten"
  | noTable => "no configured table referenced"
  | statementSealed => "statement rewritten"
  | sealingFailed => "rewrite failed, executing the original statement"
  | statementPassed => "statement kind is not rewritten"
  | insertDerived => "insert already targets derived columns, left unmodified"
  | insertSource => "insert source is not a VALUES list, left unmodified"
  | insertWidth => "insert row width differs from its column list, left unmodified"
  | columnSkipped => "unsupported value expression, column left unmodified"
  | assignmentsDerived => "assignments already target derived columns, left unmodified"
  | assignmentSkipped => "unsupported value expression, assignment left unmodified"
  | valueKept => "decryption failed, ciphertext kept"
  | valuesKept => "some values could not be decrypted"

def line (e : Event) : String := e.level.name ++ " " ++ e.message

end Event

end SealedColumns

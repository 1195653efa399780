import SealedColumns.Json.Value

/-!
What is kept of a statement between its execution and the reading of its result.
-/
namespace SealedColumns

/-- `aliases` maps the output names of ciphertext columns to result properties. -/
structure Invocation where
  id : String
  aliases : Members String
deriving DecidableEq, Repr

namespace Invocation

def passing (id : String) : Invocation := ⟨id, []⟩

def needsDecryption (i : Invocation) : Bool := !i.aliases.isEmpty

end Invocation

end SealedColumns

import SealedColumns.Keys.Directory
import SealedColumns.Keys.Static
import SealedColumns.Vault

/-!
Handlers by the name that a configuration calls them by, each made from the handler options.
-/
namespace SealedColumns

abbrev HandlerFactory := Members String → Except HandlerError Handler

abbrev Registry := Members HandlerFactory

namespace Registry

def empty : Registry := []

/-- A later handler takes the place of an earlier one of the same name. -/
def register (r : Registry) (name : String) (factory : HandlerFactory) : Registry :=
  Members.insert name factory r

def vaultFactory : HandlerFactory := fun options => do
  return (← Vault.ofProvider (← StaticKeys.ofOptions options).provider).handler

/-- The handler over a key directory, which the option `keyDir` names. -/
def directoryFactory (volume : Volume) : HandlerFactory := fun options => do
  let path ← StaticKeys.required options "keyDir"
  let d ← Vault.ofKey (KeyDirectory.open? volume path)
  return (← Vault.ofProvider (d.provider volume)).handler

def default : Registry := empty.register "vault" vaultFactory

def directoryName : String := "vault-file"

def withDirectories (r : Registry) (volume : Volume) : Registry :=
  r.register directoryName (directoryFactory volume)

def names (r : Registry) : List String := r.keys

def escapeChar (c : Char) : List Char :=
  match c with
  | '"' => ['\\', '"']
  | '\\' => ['\\', '\\']
  | '\n' => ['\\', 'n']
  | '\r' => ['\\', 'r']
  | '\t' => ['\\', 't']
  | '\x00' => ['\\', '0']
  | c =>
    if c.toNat < 32 || (127 ≤ c.toNat && c.toNat < 160) then
      ['\\', 'u', '\x7b'] ++ Nat.toDigits 16 c.toNat ++ ['\x7d']
    else [c]

def quoteName (name : String) : String :=
  String.ofList ('"' :: name.toList.flatMap escapeChar ++ ['"'])

def describe (r : Registry) : String :=
  "HandlerRegistry \x7b handlers: [" ++ Text.joinWith ", " (r.names.map quoteName) ++ "] \x7d"

def build (r : Registry) (name : String) (options : Members String) :
    Except ConfigFault Handler :=
  match Members.get? name r with
  | none => .error (.unknownHandler name)
  | some factory =>
    match factory options with
    | .ok handler => .ok handler
    | .error cause => .error (.handlerStart name cause)

end Registry

end SealedColumns

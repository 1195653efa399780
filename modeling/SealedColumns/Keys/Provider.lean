import SealedColumns.Error

/-!
Where keys come from: the id of the key for new ciphertexts, the keys by id, and the pepper that
indexes are keyed with.
-/
namespace SealedColumns

open Text (Bytes)

structure KeyProvider where
  currentId : Except KeyError String
  key : String → Except KeyError Bytes
  pepper : Except KeyError (Option Bytes)

end SealedColumns

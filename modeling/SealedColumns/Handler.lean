import SealedColumns.Error
import SealedColumns.Supply

/-!
The three operations on values. An index is the same for the same text each time; a ciphertext may
differ, since encryption takes bytes from the supply. It takes no names.
-/
namespace SealedColumns

structure Handler where
  encrypt : String → Supply → Except HandlerError String × Supply
  decrypt : String → Except HandlerError String
  index : String → Except HandlerError String
  encrypt_sameNames : ∀ (plain : String) (supply : Supply),
      supply.SameNames (encrypt plain supply).2 := by
    intros; exact ⟨rfl, rfl⟩

end SealedColumns

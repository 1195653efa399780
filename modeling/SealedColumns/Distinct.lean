/-!
Lists without repetitions.
-/
namespace SealedColumns

def distinct {α : Type} [BEq α] : List α → List α
  | [] => []
  | a :: rest => a :: (distinct rest).filter (· != a)

end SealedColumns

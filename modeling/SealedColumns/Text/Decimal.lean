/-!
Natural numbers written in decimal, and the whole numbers of 64 bits.
-/
namespace SealedColumns.Text

def digitsValue (ds : List Char) : Nat := ds.foldl (fun n d => n * 10 + (d.toNat - 48)) 0

def word64 : Nat := Nat.pow 2 64

/-- Digits only, one at least, with an optional plus sign; leading zeros are allowed and the value
has to fit into 64 bits. -/
def parseWord? (cs : List Char) : Option Nat :=
  let ds := match cs with
    | '+' :: rest => rest
    | _ => cs
  if ds.isEmpty || !ds.all Char.isDigit then none
  else
    let n := digitsValue ds
    if n < word64 then some n else none

end SealedColumns.Text

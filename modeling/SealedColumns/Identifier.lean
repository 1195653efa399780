import SealedColumns.Text.Ascii
import SealedColumns.Text.Blank
import SealedColumns.Sql.Syntax

/-!
The form under which names are compared: trimmed, without one surrounding pair of quotes, and with
ASCII letters in lower case.
-/
namespace SealedColumns

open Text

def quotePairs : List (Char × Char) := [('"', '"'), ('`', '`'), ('[', ']')]

def unquotedBy? (s : String) (pair : Char × Char) : Option String :=
  between? (String.singleton pair.1) (String.singleton pair.2) s

/-- Trims a name and takes off one pair of quotes; the letter case stays. -/
def stripQuotes (name : String) : String :=
  let name := trim name
  (quotePairs.findSome? (unquotedBy? name)).getD name

def normalizeIdentifier (name : String) : String := asciiLower (stripQuotes name)

def Sql.Ident.normalized (ident : Sql.Ident) : String := asciiLower ident.text

end SealedColumns

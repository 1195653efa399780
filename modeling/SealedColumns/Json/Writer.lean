import SealedColumns.Json.Value

/-!
JSON texts, compact or indented by two spaces. Strings keep every character above the control
range; keys come in the order of the members.
-/
namespace SealedColumns.Json

def hexDigitOf (n : Nat) : Char := if n < 10 then Char.ofNat (48 + n) else Char.ofNat (87 + n)

def escapeChar (c : Char) : List Char :=
  match c with
  | '"' => ['\\', '"']
  | '\\' => ['\\', '\\']
  | '\n' => ['\\', 'n']
  | '\r' => ['\\', 'r']
  | '\t' => ['\\', 't']
  | _ =>
    let n := c.toNat
    if n == 8 then ['\\', 'b']
    else if n == 12 then ['\\', 'f']
    else if n < 32 then ['\\', 'u', '0', '0', hexDigitOf (n / 16), hexDigitOf (n % 16)]
    else [c]

def quote (s : String) : String :=
  String.ofList ('"' :: s.toList.flatMap escapeChar ++ ['"'])

mutual

def compact : Json → String
  | .null => "null"
  | .boolean b => if b then "true" else "false"
  | .number n => n.render
  | .string s => quote s
  | .array items => "[" ++ compactItems items ++ "]"
  | .object members => "\x7b" ++ compactMembers members ++ "\x7d"

def compactItems : List Json → String
  | [] => ""
  | [item] => compact item
  | item :: rest => compact item ++ "," ++ compactItems rest

def compactMembers : List (String × Json) → String
  | [] => ""
  | [(key, value)] => quote key ++ ":" ++ compact value
  | (key, value) :: rest => quote key ++ ":" ++ compact value ++ "," ++ compactMembers rest

end

def margin (depth : Nat) : String := "\n" ++ String.ofList (List.replicate (2 * depth) ' ')

mutual

def indented (depth : Nat) : Json → String
  | .array [] => "[]"
  | .array (item :: rest) =>
    "[" ++ margin (depth + 1) ++ indented (depth + 1) item ++ indentedItems (depth + 1) rest ++
      margin depth ++ "]"
  | .object [] => "\x7b\x7d"
  | .object ((key, value) :: rest) =>
    "\x7b" ++ margin (depth + 1) ++ quote key ++ ": " ++ indented (depth + 1) value ++
      indentedMembers (depth + 1) rest ++ margin depth ++ "\x7d"
  | .null => "null"
  | .boolean b => if b then "true" else "false"
  | .number n => n.render
  | .string s => quote s

def indentedItems (depth : Nat) : List Json → String
  | [] => ""
  | item :: rest => "," ++ margin depth ++ indented depth item ++ indentedItems depth rest

def indentedMembers (depth : Nat) : List (String × Json) → String
  | [] => ""
  | (key, value) :: rest =>
    "," ++ margin depth ++ quote key ++ ": " ++ indented depth value ++ indentedMembers depth rest

end

def pretty (value : Json) : String := indented 0 value

end SealedColumns.Json

import SealedColumns.Toml.Scalar
import SealedColumns.Toml.Table

/-!
Reading a TOML document into one object, line by line. A text is refused without a reason: nothing
depends on why.
-/
namespace SealedColumns.Toml

open Json (Reads)

def isBare (c : Char) : Bool := c.isAlphanum || c == '_' || c == '-'

def readKeyPart (cs : List Char) : Option (String × List Char) :=
  match cs.takeWhile isBare with
  | [] => readLineString cs
  | name => some (String.ofList name, cs.dropWhile isBare)

def readKeyFrom : Nat → Reads (List String)
  | 0, _ => none
  | fuel + 1, cs => do
    let (part, rest) ← readKeyPart (skipSpace cs)
    match skipSpace rest with
    | '.' :: rest =>
      let (parts, rest) ← readKeyFrom fuel rest
      some (part :: parts, rest)
    | rest => some ([part], rest)

def depthLimit : Nat := 80

def readKey (cs : List Char) : Option (List String × List Char) := do
  let (key, rest) ← readKeyFrom (cs.length + 1) cs
  if key.length < depthLimit then some (key, rest) else none

/-- What is left behind a comment, if one starts here. -/
def skipComment : List Char → List Char
  | '#' :: rest => rest.dropWhile isPlain
  | cs => cs

def skipFiller : Nat → List Char → List Char
  | 0, cs => cs
  | fuel + 1, cs =>
    let cs := skipSpace cs
    match cs with
    | '#' :: _ =>
      match newline? (skipComment cs) with
      | some rest => skipFiller fuel rest
      | none => cs
    | _ =>
      match newline? cs with
      | some rest => skipFiller fuel rest
      | none => cs

def filled (cs : List Char) : List Char := skipFiller (cs.length + 1) cs

/-- The items of an array behind its bracket; the last one may have a comma too. -/
def readItems (value : Reads Json) : Nat → Reads (List Json)
  | 0, _ => none
  | fuel + 1, cs =>
    match filled cs with
    | ']' :: rest => some ([], rest)
    | cs => do
      let (item, rest) ← value cs
      match filled rest with
      | ']' :: rest => some ([item], rest)
      | ',' :: rest =>
        let (items, rest) ← readItems value fuel rest
        some (item :: items, rest)
      | _ => none

def readPair (value : Reads Json) (cs : List Char) : Option ((List String × Json) × List Char) := do
  let (key, rest) ← readKey cs
  match rest with
  | '=' :: rest =>
    let (v, rest) ← value (skipSpace rest)
    some ((key, v), rest)
  | _ => none

def readPairs (value : Reads Json) : Nat → Table → Reads Table
  | 0, _, _ => none
  | fuel + 1, table, cs => do
    let ((key, v), rest) ← readPair value cs
    let table ← table.set? key v
    match skipSpace rest with
    | ',' :: rest => readPairs value fuel table rest
    | '\x7d' :: rest => some (table, rest)
    | _ => none

def readInline (value : Reads Json) (cs : List Char) : Option (Json × List Char) :=
  match skipSpace cs with
  | '\x7d' :: rest => some (.object [], rest)
  | cs => do
    let (table, rest) ← readPairs value (cs.length + 1) .opened cs
    some (table.toJson, rest)

/-- A value with arrays and inline tables nested less than `depth` deep. -/
def readValue : Nat → Reads Json
  | 0, _ => none
  | depth + 1, cs =>
    match cs with
    | '[' :: rest =>
      if depth == 0 then none
      else do
        let (items, rest) ← readItems (readValue depth) (rest.length + 1) rest
        some (.array items, rest)
    | '\x7b' :: rest => if depth == 0 then none else readInline (readValue depth) rest
    | 't' :: 'r' :: 'u' :: 'e' :: rest => some (.boolean true, rest)
    | 'f' :: 'a' :: 'l' :: 's' :: 'e' :: rest => some (.boolean false, rest)
    | c :: _ =>
      if c == '"' || c == '\'' then do
        let (s, rest) ← readString cs
        some (.string s, rest)
      else readNumber cs
    | [] => none

structure Document where
  root : Table
  current : List String

/-- What a line holds: nothing, a header, or a key with its value. -/
def readLine (d : Document) (cs : List Char) : Option (Document × List Char) :=
  match cs with
  | '[' :: '[' :: rest => do
    let (path, rest) ← readKey rest
    match rest with
    | ']' :: ']' :: rest => some (⟨← d.root.append? path, path⟩, rest)
    | _ => none
  | '[' :: rest => do
    let (path, rest) ← readKey rest
    match rest with
    | ']' :: rest => some (⟨← d.root.open? path, path⟩, rest)
    | _ => none
  | '#' :: _ => some (d, cs)
  | [] => some (d, [])
  | _ =>
    if (newline? cs).isSome then some (d, cs)
    else do
      let ((key, value), rest) ← readPair (readValue depthLimit) cs
      some (⟨← d.root.setAt? d.current key value, d.current⟩, rest)

def readLines : Nat → Document → List Char → Option Document
  | 0, _, _ => none
  | fuel + 1, d, cs => do
    let (d, rest) ← readLine d (skipSpace cs)
    match skipComment (skipSpace rest) with
    | [] => some d
    | rest =>
      let rest ← newline? rest
      readLines fuel d rest

def dropMark : List Char → List Char
  | c :: rest => if c.toNat == 0xFEFF then rest else c :: rest
  | [] => []

def parse? (text : String) : Option Json := do
  let cs := dropMark text.toList
  let d ← readLines (cs.length + 1) ⟨.opened, []⟩ cs
  some d.root.toJson

end SealedColumns.Toml

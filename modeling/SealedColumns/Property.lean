import SealedColumns.Json.Value
import SealedColumns.Text.Ascii
import SealedColumns.Text.Blank
import SealedColumns.Text.Decimal

/-!
Property paths such as `user.phones[0].number`. Names are separated by points, indexes stand in
brackets behind them; empty names are skipped, and a path without any segment is malformed.
-/
namespace SealedColumns.Property

open Text

inductive Segment where
  | key (name : String)
  | index (position : Nat)
deriving DecidableEq, Repr

def indexes? : Nat → List Char → Option (List Segment)
  | _, [] => some []
  | 0, _ :: _ => none
  | fuel + 1, c :: rest =>
    if c != '[' then none
    else
      match rest.dropWhile (· != ']') with
      | [] => none
      | _ :: after => do
        let index ← parseWord? (trimChars (rest.takeWhile (· != ']')))
        let more ← indexes? fuel after
        some (.index index :: more)

def partSegments? (part : List Char) : Option (List Segment) := do
  let name := part.takeWhile (· != '[')
  let more ← indexes? part.length (part.dropWhile (· != '['))
  some (if name.isEmpty then more else .key (String.ofList name) :: more)

def joinSegments? : List (List Char) → Option (List Segment)
  | [] => some []
  | part :: parts => do
    let here ← partSegments? part
    let more ← joinSegments? parts
    some (here ++ more)

def segments? (path : String) : Option (List Segment) := do
  let segments ← joinSegments? (splitAll '.' path.toList)
  if segments.isEmpty then none else some segments

def isSeparator (c : Char) : Bool := c == '.' || c == '['

/-- The text before the first point or bracket, and the text behind it, less one point. -/
def splitRoot (path : String) : String × String :=
  let root := path.toList.takeWhile fun c => !isSeparator c
  match path.toList.dropWhile fun c => !isSeparator c with
  | '.' :: rest => (String.ofList root, String.ofList rest)
  | rest => (String.ofList root, String.ofList rest)

def child? (value : Json) : Segment → Option Json
  | .key name => value.field? name
  | .index position => value.item? position

def getAt? (value : Json) : List Segment → Option Json
  | [] => some value
  | segment :: rest => do getAt? (← child? value segment) rest

def get? (root : Json) (path : String) : Option Json :=
  if path = "" then some root else do getAt? root (← segments? path)

def replaceChild (value child : Json) : Segment → Json
  | .key name =>
    match value with
    | .object members => .object (Members.replace name child members)
    | _ => value
  | .index position =>
    match value with
    | .array items => .array (items.set position child)
    | _ => value

def updateAt? (value new : Json) : List Segment → Option Json
  | [] => some new
  | segment :: rest => do
    let child ← child? value segment
    let child ← updateAt? child new rest
    some (replaceChild value child segment)

def update? (root : Json) (path : String) (value : Json) : Option Json :=
  if path = "" then some value else do updateAt? root value (← segments? path)

/-- The last segment may name a new member of an object; every other one has to be there. -/
def setAt? (value new : Json) : List Segment → Option Json
  | [] => none
  | [.key name] =>
    match value with
    | .object members => some (.object (Members.insert name new members))
    | _ => none
  | [.index position] =>
    match value with
    | .array items =>
      if position < items.length then some (.array (items.set position new)) else none
    | _ => none
  | segment :: rest => do
    let child ← child? value segment
    let child ← setAt? child new rest
    some (replaceChild value child segment)

/-- The root with a new value at a path; the empty path replaces it whole. -/
def set? (root : Json) (path : String) (value : Json) : Option Json :=
  if path = "" then some value else do setAt? root value (← segments? path)

end SealedColumns.Property

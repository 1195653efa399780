import SealedColumns.CommandLine
import SealedColumns.Entropy

/-!
The program: reads the files that a command may look into, runs the command on them, and writes
back what it changed.
-/
namespace SealedColumns.Main

open Text (Bytes)

/-- The entry at a path, and for a directory the files in it. -/
def readEntry (volume : Volume) (path : Path) : IO Volume := do
  let place := (← IO.currentDir) / path.text
  if ← place.isDir then return volume.put path .directory
  else if ← place.pathExists then
    return volume.put path (.file (← IO.FS.readBinFile place).toList)
  else return volume

def readPath (volume : Volume) (text : String) : IO Volume := do
  let path := Path.ofText text
  let volume ← path.heads.foldlM readEntry volume
  let place := (← IO.currentDir) / path.text
  if ← place.isDir then
    (← place.readDir).foldlM (fun volume item => readEntry volume (path ++ [item.fileName])) volume
  else return volume

/-- Reads what a command names, and then what the files read name in their turn. -/
def readVolume (command : Command) : IO Volume := do
  let first ← (command.paths .empty).foldlM readPath .empty
  (command.paths first).foldlM readPath first

def writeEntry (change : Path × Entry) : IO Unit := do
  match change with
  | (path, .directory) => IO.FS.createDirAll path.text
  | (path, .file content) => IO.FS.writeBinFile path.text ⟨content.toArray⟩

def newSupply : IO Supply := do
  return Supply.ofSeed (← IO.getRandomBytes 32).toList

def usage : List String :=
  ["usage:", "  keygen [--output DIR]", "  rotate [--key-dir DIR]",
    "  rewrite --config FILE --statement-id ID --sql SQL [--kind KIND] [--mapping NAMES]",
    "    [--params JSON] [--result-map PAIRS]",
    "  decrypt --config FILE --rows JSON --columns PAIRS"]

def report (result : Command.Result) : IO Unit := do
  for event in result.log do
    if event.level = .warn then IO.eprintln event.line
  IO.print result.output
  match result.error with
  | some e => IO.eprintln ("Error: " ++ e.message)
  | none => pure ()

def run (words : List String) : IO UInt32 := do
  match Command.ofWords? words with
  | none =>
    usage.forM fun line => IO.eprintln line
    return 2
  | some command =>
    let volume ← readVolume command
    let (result, store) := command.run ⟨volume, ← newSupply⟩
    (store.volume.changes volume).forM writeEntry
    report result
    return UInt32.ofNat result.exitCode

end SealedColumns.Main

def main (words : List String) : IO UInt32 := SealedColumns.Main.run words

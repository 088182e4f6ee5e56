import DocComments.Command.Reach
import DocComments.Command.Run

/-!
# The command

Reads the part of the file system that the arguments name, runs the command on it, and writes what
the run changed.
-/

namespace DocComments.Main

open Command

/-- The place of a location on the machine. -/
def placeOf (loc : Location) : String :=
  String.ofList ('/' :: List.intercalate ['/'] loc)

/-- What stands at one location, added to what is known already. -/
def loadNode (fs : FileSystem) (loc : Location) : IO FileSystem := do
  let place := (← IO.currentDir) / placeOf loc
  if loc.isEmpty then return fs
  else if ← place.isDir then return fs.put loc .directory
  else if ← place.pathExists then
    match ← (IO.FS.readBinFile place).toBaseIO with
    | .ok content => return fs.put loc (.file content)
    | .error _ => return (fs.put loc (.file .empty)).close loc
  else return fs

/-- The tree at a location, to the given depth, added to what is known already. -/
def loadTree : Nat → FileSystem → Location → IO FileSystem
  | 0, fs, loc => loadNode fs loc
  | depth + 1, fs, loc => do
    let fs ← loadNode fs loc
    let place := (← IO.currentDir) / placeOf loc
    if ← place.isDir then
      match ← place.readDir.toBaseIO with
      | .ok entries =>
        entries.foldlM (fun fs entry => loadTree depth fs (loc ++ [entry.fileName.toList])) fs
      | .error _ => return fs.close loc
    else return fs

/-- The part of the machine's file system that the options can name. -/
def loadAll (o : Options) : IO FileSystem := do
  let trail := follow [] (← IO.currentDir).toString.toList
  let working : Location := trail.getLast?.getD []
  let start ← trail.foldlM loadNode ⟨[], working⟩
  (reaches o).foldlM (fun fs reach => do
    let trail := follow (fs.start reach.path) reach.path
    let fs ← trail.foldlM loadNode fs
    loadTree reach.depth fs (trail.getLast?.getD [])) start

/-- Bring about what stands at a location after the run. -/
def store (change : Location × Node) : IO Unit :=
  match change with
  | (loc, .directory) => IO.FS.createDirAll (placeOf loc)
  | (loc, .file content) => IO.FS.writeBinFile (placeOf loc) content

/-- Run the command on the machine. -/
def execute (args : List Text) : IO UInt32 := do
  match Options.parse args with
  | .error e =>
    IO.eprintln (String.ofList ("error: ".toList ++ e.message))
    return 2
  | .ok o =>
    let stdin ← if o.files.isEmpty then (← IO.getStdin).readBinToEnd else pure .empty
    let before ← loadAll o
    let outcome := runOptions o stdin before
    outcome.warnings.forM fun warning => IO.eprintln (String.ofList (" WARN ".toList ++ warning))
    (before.changes outcome.files).forM store
    IO.print (String.ofList outcome.stdout)
    match outcome.ending with
    | .failure e => IO.eprint (String.ofList ("Error: ".toList ++ e.report))
    | _ => pure ()
    return outcome.ending.exitCode.toUInt32

end DocComments.Main

/-- The program. -/
def main (args : List String) : IO UInt32 :=
  DocComments.Main.execute (args.map String.toList)

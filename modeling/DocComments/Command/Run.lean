import DocComments.Command.Inputs
import DocComments.Command.Options

/-!
# Running the command

A run reads its inputs, checks that every comment has the tags it must have, and then either prints
the values of one key or writes the documents, to standard output or to files.

* `checkRequired` is the check, and `printValues` the answer to a look-up.
* `writeDocuments` writes a file for each document.
* `run` puts the stages together: the first that fails ends the run.
-/

namespace DocComments.Command

/-! ## Stages -/

/-- Fails at the first comment that lacks one of the keys. -/
def checkRequired (ds : List Document) (keys : List Text) : Except Failure Unit :=
  ds.forM fun d => d.comments.forM fun c => keys.forM fun key =>
    match c.entries.findOrFail (some key) with
    | .ok _ => .ok ()
    | .error e => .error (.missingTag d.source c.line key e)

/-- The values of the key in all comments, each on lines of its own. -/
def printValues (ds : List Document) (key : Option Text) : Text :=
  (ds.flatMap Document.comments).flatMap fun c =>
    ((c.entries.findValues key).filterMap id).flatMap (· ++ ['\n'])

/-- The name of the file that a document is written to. -/
def outputName (format : Format) (d : Document) : Text :=
  (Path.stem? d.source).getD d.source ++ '.' :: format.extension

/-- Write the documents to files of a directory, in order, until one cannot be written. -/
def writeDocuments (format : Format) (directory : Path) (fs : FileSystem) :
    List Document → FileSystem × Option Failure
  | [] => (fs, none)
  | d :: ds =>
    let path := directory.join (outputName format d)
    match fs.writeFile path (encodeText (format.render d)) with
    | .ok written => writeDocuments format directory written ds
    | .error e => (fs, some (.unwritableFile path e))

/-- Make a directory and write the documents to it. -/
def writeOutput (format : Format) (directory : Path) (fs : FileSystem) (ds : List Document) :
    FileSystem × Option Failure :=
  match fs.makeDirectories directory with
  | (made, some e) => (made, some (.noOutputDirectory directory e))
  | (made, none) => writeDocuments format directory made ds

/-! ## Outcomes -/

/-- How a run ended. -/
inductive Ending where
  /-- Everything was done. -/
  | success
  /-- A stage failed. -/
  | failure (reason : Failure)
  /-- The arguments were not understood, and nothing was done. -/
  | usage (reason : UsageError)
  deriving DecidableEq, Repr

/-- The exit code that tells how a run ended. -/
def Ending.exitCode : Ending → Nat
  | success => 0
  | failure _ => 1
  | usage _ => 2

/-- What a run leaves behind. -/
structure Outcome where
  /-- How the run ended. -/
  ending : Ending
  /-- What it printed. -/
  stdout : Text
  /-- What it warned of, in order. -/
  warnings : List Text
  /-- The files after the run. -/
  files : FileSystem

/-! ## The run -/

/-- The documents that the options name, and the warnings on the way to them. -/
def inputs (o : Options) (stdin : ByteArray) (fs : FileSystem) :
    List Text × Except Failure (List Document) :=
  if o.files.isEmpty then ([], (readInput stdin).map ([·]))
  else
    let (warnings, paths) := expand fs o.files
    (warnings, paths.bind (readDocuments fs))

/-- Print or write the documents as the options say. -/
def emit (o : Options) (fs : FileSystem) (warnings : List Text) (ds : List Document) : Outcome :=
  if o.key.isSome || o.texts then ⟨.success, printValues ds o.key, warnings, fs⟩
  else
    match Format.ofName? o.format with
    | none => ⟨.failure (.unknownFormat o.format), [], warnings, fs⟩
    | some format =>
      match o.output with
      | none => ⟨.success, ds.flatMap format.render, warnings, fs⟩
      | some directory =>
        match writeOutput format directory fs ds with
        | (written, none) => ⟨.success, [], warnings, written⟩
        | (written, some e) => ⟨.failure e, [], warnings, written⟩

/-- Run the command as the options say. -/
def runOptions (o : Options) (stdin : ByteArray) (fs : FileSystem) : Outcome :=
  let (warnings, ds) := inputs o stdin fs
  match ds.bind fun ds => (checkRequired ds o.require).map fun _ => ds with
  | .error e => ⟨.failure e, [], warnings, fs⟩
  | .ok ds => emit o fs warnings ds

/-- Run the command. -/
def run (args : List Text) (stdin : ByteArray) (fs : FileSystem) : Outcome :=
  match Options.parse args with
  | .error e => ⟨.usage e, [], [], fs⟩
  | .ok o => runOptions o stdin fs

end DocComments.Command

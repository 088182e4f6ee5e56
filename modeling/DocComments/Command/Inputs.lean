import DocComments.Command.Failure
import DocComments.Text.Terminal

/-!
# The inputs of a run

An argument is a file, a directory, which stands for the source files directly in it, or a pattern,
which stands for the files it matches. The files of all arguments are read in the order of their
paths, each once.

* `filesOf` is what one argument contributes, and `expand` the files of all arguments.
* `readDocuments` reads the files that hold doc comments.
-/

namespace DocComments.Command

/-- The extensions of the files that are taken from a directory. -/
def sourceExtensions : List Text :=
  ["php", "java", "js", "mjs", "ts", "c", "h", "cpp", "hpp", "cs", "kt", "scala", "swift"].map
    String.toList

/-- Is this the path of a source file? -/
def isSourcePath (p : Path) : Bool :=
  p.extension?.any (sourceExtensions.contains ·)

/-! ## Arguments -/

/-- The files that an argument stands for. -/
def filesOf (fs : FileSystem) (arg : Text) : Except Failure (List Path) :=
  if fs.hasFile arg then .ok [arg]
  else if fs.hasDirectory arg then
    match fs.names arg with
    | .error e => .error (.unreadableDirectory arg e)
    | .ok names => .ok ((names.map (Path.join arg)).filter fun p => fs.hasFile p && isSourcePath p)
  else
    match Pattern.parse arg with
    | .error e => .error (.badPattern arg e)
    | .ok pattern => .ok ((pattern.search fs).filter fs.hasFile)

/-- What is said of a pattern that matches no file. -/
def unmatchedMessage (arg : Text) : Text :=
  "no files matched: ".toList ++ Text.forTerminal arg

/-- The files of the arguments in order, repetitions included, and what is to be said of those that
match nothing, up to the first that fails. -/
def gather (fs : FileSystem) : List Text → List Text × Except Failure (List Path)
  | [] => ([], .ok [])
  | arg :: args =>
    match filesOf fs arg with
    | .error e => ([], .error e)
    | .ok paths =>
      let (warnings, rest) := gather fs args
      (if paths.isEmpty && !fs.hasDirectory arg then unmatchedMessage arg :: warnings
        else warnings,
        rest.map (paths ++ ·))

/-- The files of the arguments, in the order of their paths and each once. -/
def expand (fs : FileSystem) (args : List Text) : List Text × Except Failure (List Path) :=
  let (warnings, paths) := gather fs args
  (warnings, paths.map Path.sortDistinct)

/-! ## Documents -/

/-- The document that a file holds. -/
def readDocument (fs : FileSystem) (p : Path) : Except Failure Document :=
  match fs.readText p with
  | .ok content => .ok (.extract p content)
  | .error e => .error (.unreadableFile p e)

/-- The documents that the files hold, without those that have no doc comment. -/
def readDocuments (fs : FileSystem) (paths : List Path) : Except Failure (List Document) :=
  (paths.mapM (readDocument fs)).map (·.filter (!·.comments.isEmpty))

/-- Standard input as a document. -/
def readInput (stdin : ByteArray) : Except Failure Document :=
  match decodeText stdin with
  | .ok text => .ok (.raw "stdin".toList text)
  | .error e => .error (.unreadableInput e)

end DocComments.Command

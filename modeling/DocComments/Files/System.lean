import DocComments.Files.Path
import DocComments.Text.Bytes

/-!
# File systems

A file system is a finite tree of files and directories, kept as a list of locations with what is
there, together with the standpoint from which it is seen: the directory that relative paths start
from, and what cannot be read. The root is always a directory.

* `FileSystem.resolve` follows a path to the location it names, step by step; a step needs a
  directory to stand in.
* `readText` and `names` read, `makeDirectory`, `makeDirectories` and `writeFile` change.
* `FileSystem.changes` lists what differs between two file systems.

Some of what a disk can hold is left out. There are no links. Names are texts. A file can be closed
to reading and a directory to being listed, but both can be looked up, what is in such a directory
can be reached, and nothing is closed to writing. What is written is written as a whole or not at
all.
-/

namespace DocComments

/-- What stands at a location. -/
inductive Node where
  /-- A file with its bytes. -/
  | file (content : ByteArray)
  /-- A directory; its entries are the locations below it. -/
  | directory

instance : DecidableEq Node
  | .file a, .file b =>
    match ByteArray.instDecidableEq a b with
    | isTrue h => isTrue (h ▸ rfl)
    | isFalse h => isFalse fun e => h (Node.file.inj e)
  | .file _, .directory => isFalse nofun
  | .directory, .file _ => isFalse nofun
  | .directory, .directory => isTrue rfl

/-- The names that lead from the root to a file or directory. -/
abbrev Location := List Text

/-- The location one step on. Nothing and a dot stay, two dots go up, and the root is its own
parent. -/
def Location.step (loc : Location) (name : Text) : Location :=
  if name = [] ∨ name = ['.'] then loc
  else if name = ['.', '.'] then loc.dropLast
  else loc ++ [name]

/-- Why an operation on the file system failed. -/
inductive SystemError where
  /-- There is nothing at the path. -/
  | noEntry
  /-- Something is in the way of a new directory. -/
  | alreadyExists
  /-- A file stands where the path needs a directory. -/
  | notDirectory
  /-- A directory stands where a file is needed. -/
  | isDirectory
  /-- The path, or a name in it, is longer than a file system can hold. -/
  | nameTooLong
  /-- What is at the path cannot be read. -/
  | accessDenied
  /-- The bytes are not the UTF-8 encoding of a text. -/
  | invalidText
  deriving DecidableEq, Repr

/-- What is said of a failed operation. -/
def SystemError.message : SystemError → Text
  | noEntry => "No such file or directory (os error 2)".toList
  | alreadyExists => "File exists (os error 17)".toList
  | notDirectory => "Not a directory (os error 20)".toList
  | isDirectory => "Is a directory (os error 21)".toList
  | nameTooLong => "File name too long (os error 36)".toList
  | accessDenied => "Permission denied (os error 13)".toList
  | invalidText => "stream did not contain valid UTF-8".toList

/-- The text that bytes encode. -/
def decodeText (bytes : ByteArray) : Except SystemError Text :=
  match String.fromUTF8? bytes with
  | some s => .ok s.toList
  | none => .error .invalidText

/-- The UTF-8 encoding of a text. -/
def encodeText (t : Text) : ByteArray :=
  (String.ofList t).toUTF8

/-- The most bytes that a name can have. -/
def nameLimit : Nat := 255

/-- The most bytes that a path can have. -/
def pathLimit : Nat := 4095

/-- From where a file system is seen, and how much of it. -/
structure Standpoint where
  /-- The directory that relative paths start from. -/
  working : Location
  /-- The files that cannot be read, and the directories that cannot be listed. -/
  unreadable : List Location

/-- From a directory of which nothing else is said, everything can be read. -/
instance : Coe Location Standpoint :=
  ⟨fun working => ⟨working, []⟩⟩

/-- Files and directories, and from where they are seen. -/
structure FileSystem where
  /-- What stands at each location but the root. -/
  contents : List (Location × Node)
  /-- From where it is seen. -/
  standpoint : Standpoint

namespace FileSystem

/-- The directory that relative paths start from. -/
def working (fs : FileSystem) : Location :=
  fs.standpoint.working

/-- Is this a file that cannot be read, or a directory that cannot be listed? -/
def isClosed (fs : FileSystem) (loc : Location) : Bool :=
  fs.standpoint.unreadable.contains loc

/-- The file system where what is at a location cannot be read. -/
def close (fs : FileSystem) (loc : Location) : FileSystem :=
  { fs with standpoint.unreadable := loc :: fs.standpoint.unreadable }

/-! ## Locations -/

/-- What stands at a location. -/
def node? (fs : FileSystem) (loc : Location) : Option Node :=
  if loc = [] then some .directory
  else (fs.contents.find? fun entry => entry.1 = loc).map Prod.snd

/-- The file system with something new at a location. -/
def put (fs : FileSystem) (loc : Location) (node : Node) : FileSystem :=
  { fs with contents := fs.contents.filter (fun entry => entry.1 ≠ loc) ++ [(loc, node)] }

theorem node?_put_self {fs : FileSystem} {loc : Location} (node : Node) (h : loc ≠ []) :
    (fs.put loc node).node? loc = some node := by
  have hnone : (fs.contents.filter fun entry => entry.1 ≠ loc).find?
      (fun entry => entry.1 = loc) = none := by
    simp [List.find?_eq_none]
  rw [node?, if_neg h, put, List.find?_append, hnone]
  simp

theorem node?_put_of_ne {fs : FileSystem} {loc other : Location} (node : Node)
    (h : other ≠ loc) : (fs.put loc node).node? other = fs.node? other := by
  by_cases ho : other = []
  · simp [node?, ho]
  · simp only [node?, put, ho, if_false, List.find?_append, List.find?_filter]
    have hlast : List.find? (fun entry => decide (entry.1 = other)) [(loc, node)] = none := by
      simp [Ne.symm h]
    rw [hlast, Option.or_none]
    congr 2
    funext entry
    by_cases he : entry.1 = other
    · simp [he, h]
    · simp [he]

/-- The location one step on, for which there has to be something. -/
def enter (fs : FileSystem) (loc : Location) (name : Text) : Except SystemError Location :=
  if fs.node? loc ≠ some .directory then .error .notDirectory
  else if nameLimit < byteLength name then .error .nameTooLong
  else if (fs.node? (loc.step name)).isNone then .error .noEntry
  else .ok (loc.step name)

/-- Where a path starts. -/
def start (fs : FileSystem) (p : Path) : Location :=
  if p.isAbsolute then [] else fs.working

/-- The location that steps of a path lead to from its start. -/
def resolveSteps (fs : FileSystem) (p : Path) (steps : List Text) :
    Except SystemError Location :=
  if p.isEmpty then .error .noEntry
  else if pathLimit < byteLength p then .error .nameTooLong
  else steps.foldlM fs.enter (fs.start p)

/-- The location that a path names. -/
def resolve (fs : FileSystem) (p : Path) : Except SystemError Location :=
  fs.resolveSteps p (p.splitOn '/')

/-! ## Reading -/

/-- What stands at a path. -/
def lookup? (fs : FileSystem) (p : Path) : Option Node :=
  match fs.resolve p with
  | .ok loc => fs.node? loc
  | .error _ => none

/-- Is there anything at the path? -/
def hasPath (fs : FileSystem) (p : Path) : Bool :=
  (fs.lookup? p).isSome

/-- Is there a directory at the path? -/
def hasDirectory (fs : FileSystem) (p : Path) : Bool :=
  fs.lookup? p = some .directory

/-- Is there a file at the path? -/
def hasFile (fs : FileSystem) (p : Path) : Bool :=
  match fs.lookup? p with
  | some (.file _) => true
  | _ => false

/-- The text of the file at a path. -/
def readText (fs : FileSystem) (p : Path) : Except SystemError Text :=
  match fs.resolve p with
  | .error e => .error e
  | .ok loc =>
    if fs.isClosed loc then .error .accessDenied
    else match fs.node? loc with
      | some (.file content) => decodeText content
      | some .directory => .error .isDirectory
      | none => .error .noEntry

/-- The names in the directory at a location, in order. -/
def namesAt (fs : FileSystem) (loc : Location) : List Text :=
  Text.sort <| fs.contents.filterMap fun entry =>
    if entry.1.dropLast = loc then entry.1.getLast? else none

/-- The names in the directory at a path, in order. -/
def names (fs : FileSystem) (p : Path) : Except SystemError (List Text) :=
  match fs.resolve p with
  | .error e => .error e
  | .ok loc =>
    if fs.node? loc ≠ some .directory then .error .notDirectory
    else if fs.isClosed loc then .error .accessDenied
    else .ok (fs.namesAt loc)

/-- Is there a directory that cannot be listed on the way from the first location down to what is
below it? -/
def isHidden (fs : FileSystem) (loc entry : Location) : Bool :=
  fs.standpoint.unreadable.any fun closed =>
    loc.isPrefixOf closed && closed.isPrefixOf entry && closed ≠ entry

/-- The names that lead from the directory at a path to everything below it, each directory
before its entries and its entries in order. What is in a directory that cannot be listed is passed
over. -/
def below (fs : FileSystem) (p : Path) : List (List Text) :=
  match fs.resolve p with
  | .error _ => []
  | .ok loc =>
    let routes := fs.contents.filterMap fun entry =>
      if loc.isPrefixOf entry.1 && entry.1 ≠ loc && !fs.isHidden loc entry.1 then
        some (entry.1.drop loc.length)
      else none
    routes.mergeSort fun a b => (List.compareLex Text.compare a b).isLE

/-! ## Changing -/

/-- The location that all steps of a path but the last lead to, and the last. -/
def resolveParent (fs : FileSystem) (p : Path) (steps : List Text) :
    Except SystemError (Location × Text) :=
  (fs.resolveSteps p steps.dropLast).map fun loc => (loc, steps.getLast?.getD [])

/-- Make one directory. Slashes at the end of the path do not count. -/
def makeDirectory (fs : FileSystem) (p : Path) : Except SystemError FileSystem :=
  match fs.resolveParent p ((Text.dropEndWhile (· == '/') p).splitOn '/') with
  | .error e => .error e
  | .ok (loc, name) =>
    match fs.enter loc name with
    | .ok _ => .error .alreadyExists
    | .error .noEntry => .ok (fs.put (loc.step name) .directory)
    | .error e => .error e

/-- The ancestors of a path, from the nearest to the farthest, each spelled by its components. The
directory that a relative path starts from is not spelled and not among them. -/
def ancestors (p : Path) : List Path :=
  let cs := p.components
  ((List.range cs.length).reverse.map fun n => Path.ofComponents (cs.take n)).filter (!·.isEmpty)

/-- Make the first of the directories, where each needs the next. A directory that is there already
is just as good. Those that were made before a failure stay. -/
def makeUpwards (fs : FileSystem) : List Path → FileSystem × Option SystemError
  | [] => (fs, none)
  | p :: above =>
    let settled (fs : FileSystem) (e : SystemError) :=
      (fs, if fs.hasDirectory p then none else some e)
    match fs.makeDirectory p with
    | .ok made => (made, none)
    | .error .noEntry =>
      match makeUpwards fs above with
      | (made, some e) => (made, some e)
      | (made, none) =>
        match made.makeDirectory p with
        | .ok made => (made, none)
        | .error e => settled made e
    | .error e => settled fs e

/-- Make a directory and the ancestors that it lacks. -/
def makeDirectories (fs : FileSystem) (p : Path) : FileSystem × Option SystemError :=
  if p.isEmpty then (fs, none) else fs.makeUpwards (p :: ancestors p)

/-- Write a file, in place of the one that is there. -/
def writeFile (fs : FileSystem) (p : Path) (content : ByteArray) :
    Except SystemError FileSystem :=
  match fs.resolveParent p (p.splitOn '/') with
  | .error e => .error e
  | .ok (loc, name) =>
    match fs.enter loc name with
    | .ok there =>
      if fs.node? there = some .directory then .error .isDirectory
      else .ok (fs.put there (.file content))
    | .error .noEntry => .ok (fs.put (loc.step name) (.file content))
    | .error e => .error e

/-! ## Comparing -/

/-- What stands in the second file system and not, or not the same, in the first. -/
def changes (before after : FileSystem) : List (Location × Node) :=
  after.contents.filter fun entry => before.node? entry.1 ≠ some entry.2

end FileSystem

end DocComments

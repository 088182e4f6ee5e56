import DocComments.Command.Options
import DocComments.Files.System

/-!
# The part of a file system that a run looks at

A run is a function of a file system, and the file system of a whole machine is more than it needs.
The part that the arguments can name is cut out beforehand.

* `reaches` lists, for each argument, the path up to its first wildcard and how many levels of
  directories below that path the argument can name.
* `follow` lists the locations on the way to such a path.
-/

namespace DocComments.Command

/-- A directory or file, and the depth to which the tree below it is needed. -/
structure Reach where
  /-- The path, which has no wildcards. -/
  path : Path
  /-- How many levels below it can be named. -/
  depth : Nat
  deriving DecidableEq, Repr

/-- The depth that stands for the whole tree. -/
def wholeTree : Nat := 1000

/-- May the text stand for other names than its own? -/
def hasWildcard (step : Text) : Bool :=
  step.any fun c => c = '*' || c = '?' || c = '['

/-- What a file argument can name. -/
def Reach.ofArgument (arg : Text) : Reach :=
  let steps := arg.splitOn '/'
  let varying := steps.dropWhile (!hasWildcard ·)
  let depth := if varying.contains ['*', '*'] then wholeTree else varying.length + 1
  ⟨List.intercalate ['/'] (steps.takeWhile (!hasWildcard ·)), depth⟩

/-- What the options can name. Of the directory that files are written to, the files in it. -/
def reaches (o : Options) : List Reach :=
  o.files.map Reach.ofArgument ++ o.output.toList.map (⟨·, 1⟩)

/-- The locations that a path leads through from the given one, its own last. -/
def follow (start : Location) (p : Path) : List Location :=
  (p.splitOn '/').foldl (fun trail name => trail ++ [(trail.getLast?.getD start).step name]) [start]

end DocComments.Command

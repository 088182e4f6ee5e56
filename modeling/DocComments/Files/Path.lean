import DocComments.Text.Order

/-!
# Paths

A path is the text that names a file. Two spellings of a path can differ and still be the same
list of components: doubled slashes and interior dots do not count. Paths are ordered by their
components, so that the files of a directory stay together.

* `Path.components` reads a path, and `Path.compare` orders paths by what they read as.
* `Path.sortDistinct` puts paths into that order and keeps one spelling of each.
* `Path.join` puts a name under a directory.
* `Path.fileName?`, `Path.stem?` and `Path.extension?` read the last component.
-/

namespace DocComments

/-- A path as it is spelled. -/
abbrev Path := Text

namespace Path

/-! ## Components -/

/-- A part of a path. -/
inductive Component where
  /-- The root, at the start of an absolute path. -/
  | root
  /-- The current directory, at the start of a relative path. -/
  | current
  /-- The directory above. -/
  | parent
  /-- An entry of a directory. -/
  | name (n : Text)
  deriving DecidableEq, Repr

/-- What a path means after its start. Nothing and a single dot stay where they are. -/
def Component.ofStep? (step : Text) : Option Component :=
  if step = [] ∨ step = ['.'] then none
  else if step = ['.', '.'] then some parent
  else some (name step)

/-- Does the path start at the root? -/
def isAbsolute (p : Path) : Bool :=
  p.head? == some '/'

/-- The components of a path. A dot counts at the start of a relative path only. -/
def components (p : Path) : List Component :=
  let steps := p.splitOn '/'
  let start :=
    if p.isAbsolute then [.root]
    else if steps.head? = some ['.'] then [.current]
    else []
  start ++ steps.filterMap Component.ofStep?

/-- Is the path a spelling of the current directory? -/
def isCurrent (p : Path) : Bool :=
  p.components = [.current]

/-! ## Order -/

/-- The place of a component among the kinds of components. -/
def Component.rank : Component → Nat
  | root => 0
  | current => 1
  | parent => 2
  | name _ => 3

/-- The name of a component, where it has one. -/
def Component.label : Component → Text
  | name n => n
  | _ => []

/-- The order of components: the root first, then the two dotted steps, then names. -/
def Component.compare (a b : Component) : Ordering :=
  (Ord.compare a.rank b.rank).then (Text.compare a.label b.label)

/-- The order of paths, component by component. -/
def compare (p q : Path) : Ordering :=
  List.compareLex Component.compare p.components q.components

/-- Do the two paths have the same components? -/
def same (p q : Path) : Bool :=
  p.components = q.components

/-- The list with only the first of neighbours that have the same components. -/
def keepFirsts : List Path → List Path
  | [] => []
  | p :: ps => p :: (keepFirsts ps).dropWhile (same p)

theorem mem_of_mem_keepFirsts {p : Path} {ps : List Path} (h : p ∈ keepFirsts ps) : p ∈ ps := by
  induction ps with
  | nil => exact h
  | cons q ps ih =>
    rcases List.mem_cons.1 h with rfl | h
    · exact List.mem_cons_self ..
    · exact List.mem_cons_of_mem _ (ih ((List.dropWhile_sublist _).subset h))

/-- The paths in order, with only the first of those that have the same components. -/
def sortDistinct (ps : List Path) : List Path :=
  keepFirsts (ps.mergeSort fun p q => (compare p q).isLE)

/-! ## Building paths -/

/-- The path of an entry of a directory. An absolute path stays as it is. -/
def join (p q : Path) : Path :=
  if q.isAbsolute || p.isEmpty then q
  else if p.getLast? = some '/' then p ++ q
  else p ++ '/' :: q

/-- A component as it is spelled. -/
def Component.spell : Component → Text
  | root => ['/']
  | current => ['.']
  | parent => ['.', '.']
  | name n => n

/-- The shortest spelling of a list of components. -/
def ofComponents (cs : List Component) : Path :=
  (cs.map Component.spell).foldl join []

/-! ## File names -/

/-- The last component, if it is a name. -/
def fileName? (p : Path) : Option Text :=
  match p.components.getLast? with
  | some (.name n) => some n
  | _ => none

/-- A file name cut at its last dot. A dot at the start is part of the name. -/
def cutExtension (name : Text) : Text × Option Text :=
  match (Text.dropEndWhile (· != '.') name).dropLast with
  | [] => (name, none)
  | stem => (stem, some (Text.takeEndWhile (· != '.') name))

/-- The file name without its extension. -/
def stem? (p : Path) : Option Text :=
  p.fileName?.map fun name => (cutExtension name).1

/-- What follows the last dot of the file name. -/
def extension? (p : Path) : Option Text :=
  p.fileName?.bind fun name => (cutExtension name).2

end Path

end DocComments

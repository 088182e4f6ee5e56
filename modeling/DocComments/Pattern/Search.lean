import DocComments.Files.System
import DocComments.Pattern.Basic

/-!
# Paths that match a pattern

A pattern is matched with a file system one segment at a time, a segment being what stands between
two slashes. A segment without wildcards is looked up; a segment with wildcards is compared with the
names in a directory, and matches nothing in one that cannot be listed.

* `Pattern.parse` cuts a pattern into segments.
* `Pattern.search` lists the paths it stands for, depth first.
-/

namespace DocComments

/-- What stands between two slashes of a pattern. -/
inductive Segment where
  /-- A name. -/
  | literal (name : Text)
  /-- A name with wildcards. -/
  | wildcard (tokens : List Token)
  /-- Directories of any depth. -/
  | anyDepth
  deriving DecidableEq, Repr

/-- A pattern, segment by segment. -/
structure Pattern where
  /-- Does the pattern start at the root? -/
  absolute : Bool
  /-- What stands between its slashes. -/
  segments : List Segment
  /-- Does the pattern end in a slash, so that it stands for directories only? -/
  directoriesOnly : Bool
  deriving DecidableEq, Repr

/-! ## Reading -/

/-- The character that a token without wildcards stands for. -/
def Token.char? : Token → Option Char
  | char c => some c
  | _ => none

/-- The segment with these tokens. -/
def Segment.ofTokens (tokens : List Token) : Segment :=
  if tokens = [.anyDepth] then anyDepth
  else match tokens.mapM Token.char? with
    | some name => literal name
    | none => wildcard tokens

/-- Does a name match the segment? -/
def Segment.accepts (name : Text) : Segment → Bool
  | literal n => n = name
  | wildcard tokens => Token.accepts tokens name
  | anyDepth => false

namespace Pattern

/-- The texts between the slashes of a pattern. The slash that an absolute pattern starts with and
one at the end separate nothing. -/
def steps (p : Path) : List Text :=
  let relative := if p.isAbsolute then p.tail else p
  let steps := relative.splitOn '/'
  if steps.getLast? = some [] ∧ steps.length > 1 then steps.dropLast else steps

/-- Read a pattern. It has to be well-formed as a whole and between its slashes. -/
def parse (p : Path) : Except PatternError Pattern := do
  let _ ← Token.parse p
  let segments ← (steps p).mapM fun step => (Token.parse step).map Segment.ofTokens
  return ⟨p.isAbsolute, segments, p.getLast? = some '/'⟩

end Pattern

/-! ## Searching -/

namespace FileSystem

/-- The path of an entry of a directory. In the current directory it is the bare name. -/
def entryPath (directory : Path) (name : Text) : Path :=
  if directory.isCurrent then name else directory.join name

/-- The two dotted names of every directory that these tokens stand for. They have to start with
the dot itself. -/
def dottedNames : List Token → List Text
  | .char '.' :: tokens => [['.', '.'], ['.']].filter (Token.accepts (.char '.' :: tokens))
  | _ => []

/-- The paths under a directory that match the segments. -/
def search (fs : FileSystem) : List Segment → Path → List Path
  | [], found => [found]
  | .literal name :: segments, base =>
    let next := entryPath base name
    let present :=
      if name = ['.'] ∨ name = ['.', '.'] then fs.hasDirectory base else fs.hasPath next
    if present then search fs segments next else []
  | .wildcard tokens :: segments, base =>
    match fs.names base with
    | .error _ => []
    | .ok names =>
      (dottedNames tokens).flatMap (fun name => search fs segments (base.join name)) ++
        (names.filter (Token.accepts tokens)).flatMap fun name =>
          search fs segments (entryPath base name)
  | .anyDepth :: .anyDepth :: segments, base => search fs (.anyDepth :: segments) base
  | [.anyDepth], base =>
    if fs.hasDirectory base then
      ((fs.below base).map (·.foldl entryPath base)).filter fs.hasDirectory
    else []
  | .anyDepth :: segment :: segments, base =>
    if fs.hasDirectory base then
      ((fs.below base).filter fun names => names.getLast?.any (segment.accepts ·)).flatMap
        fun names => search fs segments (names.foldl entryPath base)
    else []

end FileSystem

/-- The paths that a pattern stands for. -/
def Pattern.search (pattern : Pattern) (fs : FileSystem) : List Path :=
  let found := fs.search pattern.segments (if pattern.absolute then ['/'] else ['.'])
  if pattern.directoriesOnly then found.filter fs.hasDirectory else found

end DocComments

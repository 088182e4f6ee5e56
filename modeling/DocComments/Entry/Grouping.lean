import DocComments.Entry.Basic
import DocComments.Line

/-!
# The groups of lines behind the entries

Read as a whole, and not line by line, a comment falls into groups of lines. A group is a tag line
with the prose directly after it, or a run of prose with no tag line directly before. Blank lines
lie between the groups.

* `Line.groups` cuts a list of lines into its groups, each with its key and its pieces.
* `Group.IsEntry` says which entry a group amounts to, without any trimming.
-/

namespace DocComments

/-- The lines that one entry is made of. -/
structure Group where
  /-- The key of the tag line that the group starts with. -/
  key : Option Text
  /-- What stands beside the key, if anything, and the prose after it. -/
  pieces : List Text
  deriving DecidableEq, Repr

/-- The entry has the key of the group, and as its value the pieces on lines of their own; without
pieces it has no value. -/
def Group.IsEntry (group : Group) (e : Entry) : Prop :=
  e.key = group.key ∧
    e.value = if group.pieces = [] then none else some (Text.joinLines group.pieces)

instance (group : Group) (e : Entry) : Decidable (group.IsEntry e) :=
  inferInstanceAs (Decidable (_ ∧ _))

namespace Line

/-- The content of a line of prose. -/
def proseContent? : Line → Option Text
  | prose content => some content
  | _ => none

/-- The contents of the lines of prose that a list of lines starts with. -/
def leadingProse (ls : List Line) : List Text :=
  (ls.takeWhile fun l => l.proseContent?.isSome).filterMap proseContent?

/-- The lines after the lines of prose that a list of lines starts with. -/
def afterProse (ls : List Line) : List Line :=
  ls.dropWhile fun l => l.proseContent?.isSome

theorem length_afterProse_le (ls : List Line) : (afterProse ls).length ≤ ls.length :=
  (List.dropWhile_sublist _).length_le

/-- The groups of a list of lines, in order. -/
def groups : List Line → List Group
  | [] => []
  | blank :: ls => groups ls
  | tag key value :: ls =>
    have := length_afterProse_le ls
    ⟨some key, (if value = [] then [] else [value]) ++ leadingProse ls⟩ :: groups (afterProse ls)
  | prose content :: ls =>
    have := length_afterProse_le ls
    ⟨none, content :: leadingProse ls⟩ :: groups (afterProse ls)
termination_by ls => ls.length

end Line

end DocComments

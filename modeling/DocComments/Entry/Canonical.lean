import DocComments.Comment.Scan

/-!
# Writing comments

The entries that a comment can have, and the comment that they are written as: each content on a
line after a star, and a line with a lone star after each entry.

* `Entry.WellFormed` says which entries a comment can have.
* `Entry.canonical` writes a comment, and `Comment.canonicalSource` a source of comments, each
  followed by what it documents.
-/

namespace DocComments

namespace Entry

/-! ## Well-formed entries -/

/-- The lines of the value. -/
def valueLines (e : Entry) : List Text :=
  match e.value with
  | some value => value.splitOn '\n'
  | none => []

/-- The lines of the value that stand on lines of their own: all but the first of a tag, which
stands beside the key. -/
def ownLines (e : Entry) : List Text :=
  if e.key.isSome then e.valueLines.drop 1 else e.valueLines

/-- A line that can stand in a value. -/
def IsValueLine (line : Text) : Prop :=
  line ≠ [] ∧ Text.trim line = line

/-- A line that is read as prose when it stands on a line of its own. -/
def IsProseLine (line : Text) : Prop :=
  line ≠ ['/'] ∧ Line.readTag? line = none

/-- A text that can be a key. -/
def IsKey (key : Text) : Prop :=
  key ≠ [] ∧ ∀ c ∈ key, Text.isWord c = true

instance : DecidablePred IsValueLine :=
  fun _ => inferInstanceAs (Decidable (_ ∧ _))

instance : DecidablePred IsProseLine :=
  fun _ => inferInstanceAs (Decidable (_ ∧ _))

instance : DecidablePred IsKey := fun key =>
  have : Decidable (∀ c ∈ key, Text.isWord c = true) := List.decidableBAll _ key
  inferInstanceAs (Decidable (_ ∧ _))

/-- The entry can be an entry of a comment. -/
structure WellFormed (e : Entry) : Prop where
  /-- A key is a word. -/
  isKey : ∀ key ∈ e.key, IsKey key
  /-- The lines of the value are trimmed and not empty. -/
  isValueLine : ∀ line ∈ e.valueLines, IsValueLine line
  /-- Prose has a value. -/
  isSome_value : e.key = none → e.value.isSome
  /-- A line of its own is not read as anything but prose. -/
  isProseLine : ∀ line ∈ e.ownLines, IsProseLine line

theorem wellFormed_iff {e : Entry} :
    e.WellFormed ↔ (∀ key ∈ e.key, IsKey key) ∧ (∀ line ∈ e.valueLines, IsValueLine line) ∧
      (e.key = none → e.value.isSome) ∧ ∀ line ∈ e.ownLines, IsProseLine line :=
  ⟨fun h => ⟨h.isKey, h.isValueLine, h.isSome_value, h.isProseLine⟩,
    fun ⟨h₁, h₂, h₃, h₄⟩ => ⟨h₁, h₂, h₃, h₄⟩⟩

instance : DecidablePred WellFormed :=
  fun _ => decidable_of_iff _ wellFormed_iff.symm

/-! ## The written form -/

/-- A content on a line of a comment. -/
def decorate (content : Text) : Text :=
  [' ', '*', ' '] ++ content ++ ['\n']

/-- The line of a comment without content. -/
def emptyLine : Text :=
  [' ', '*', '\n']

/-- The contents of the lines that an entry is written on. -/
def contents (e : Entry) : List Text :=
  match e.key, e.valueLines with
  | none, lines => lines
  | some key, [] => ['@' :: key]
  | some key, line :: lines => ('@' :: key ++ ' ' :: line) :: lines

/-- The comment with these entries. -/
def canonical (es : Entries) : Text :=
  openDelimiter ++ ['\n'] ++
    es.flatMap (fun e => e.contents.flatMap decorate ++ emptyLine) ++ [' '] ++ closeDelimiter

end Entry

/-- A source of comments, each before the line that it documents. -/
def Comment.canonicalSource (parts : List (Entries × Text)) : Text :=
  parts.flatMap fun (es, target) => Entry.canonical es ++ ['\n'] ++ target ++ ['\n']

end DocComments

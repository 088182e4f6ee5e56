import DocComments.Document.Basic
import DocComments.Document.CodeSpan

/-!
# Documents as Markdown

A document is a section named for its source. Each comment in it is a section named for its target,
or for its line if it has none; its prose comes first and its tags follow as a list.

* `Entry.markdown` writes a tag as a list item.
* `Comment.markdown` and `Document.markdown` write the sections.
-/

namespace DocComments

/-! ## Tags -/

/-- A text whose later lines are indented, so that they stay in the list item they belong to. -/
def indentLines (t : Text) : Text :=
  t.flatMap fun c => if c = '\n' then ['\n', ' ', ' '] else [c]

/-- A tag as a list item. -/
def Entry.markdown (e : Entry) : Text :=
  "* **@".toList ++ e.key.getD [] ++ "**".toList ++
    match e.value with
    | some value => ' ' :: indentLines value
    | none => []

/-! ## Sections -/

/-- The prose that follows the first tag. -/
def Entries.laterProse (es : Entries) : List Text :=
  ((es.dropWhile Entry.isProse).filter Entry.isProse).filterMap Entry.value

/-- The tags, as a list under a heading of its own. -/
def Entries.tagList (es : Entries) : List Text :=
  if es.tags.isEmpty then []
  else "#### Annotations\n".toList :: es.tags.map Entry.markdown ++ [[]]

namespace Comment

/-- The heading of a comment: what it documents, or else where it stands. -/
def heading (c : Comment) : Text :=
  "## ".toList ++
    match c.target with
    | some target => codeSpan target
    | none => "Line ".toList ++ Text.ofNat c.line

/-- A comment as a section. -/
def markdown (c : Comment) : Text :=
  let paragraphs := c.entries.header.toList ++ c.entries.laterProse
  Text.joinLines <|
    (c.heading ++ ['\n']) :: paragraphs.flatMap (fun paragraph => [paragraph, []]) ++
      c.entries.tagList

end Comment

/-- A document as a section. -/
def Document.markdown (d : Document) : Text :=
  "# ".toList ++ d.source ++ ['\n', '\n'] ++ d.comments.flatMap fun c => c.markdown ++ ['\n']

end DocComments

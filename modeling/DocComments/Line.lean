import DocComments.Text.Blank
import DocComments.Text.Word

/-!
# Lines of a doc comment

A line of a doc comment is decorated: optional blanks, an optional slash, one or more stars and
more blanks stand before its content. A line without the stars has no content, and neither has the
line that closes the comment, whose content would be a lone slash.

* `content?` removes the decoration.
* `readTag?` reads a content that opens a tag, an at sign directly before a word.
* `Line.ofText` sorts a line into the three kinds that matter to the entries of a comment: blank
  lines, lines that open a tag, and prose.
-/

namespace DocComments

/-- What a line contributes to a doc comment. -/
inductive Line where
  /-- Nothing: the line ends the entry before it. -/
  | blank
  /-- The start of a tag, with what stands beside the key. -/
  | tag (key value : Text)
  /-- Words that continue the entry before them, or start one. -/
  | prose (content : Text)
  deriving DecidableEq, Repr

namespace Line

/-! ## Decoration -/

/-- What follows the blanks, the slash, the stars and the blanks that a decorated line starts
with. -/
def afterLeader? (line : Text) : Option Text :=
  match Text.trimStart line with
  | '*' :: rest => some (Text.trimStart (rest.dropWhile (· == '*')))
  | '/' :: '*' :: rest => some (Text.trimStart (rest.dropWhile (· == '*')))
  | _ => none

/-- The content of a decorated line. A content ends with its line, so a line break inside it
leaves the line without one; a lone slash is the end of the comment and no content. -/
def content? (line : Text) : Option Text :=
  (afterLeader? line).bind fun rest =>
    if rest.contains '\n' || Text.trimEnd rest == ['/'] then none else some (Text.trimEnd rest)

/-! ## Tags -/

/-- The key and the value of a content that opens a tag. The key is the longest word after the at
sign, and the value is what follows on the line. -/
def readTag? : Text → Option (Text × Text)
  | '@' :: rest =>
    let key := rest.takeWhile Text.isWord
    let value := rest.dropWhile Text.isWord
    if key.isEmpty || value.contains '\n' then none else some (key, Text.trim value)
  | _ => none

/-! ## Kinds of lines -/

/-- The kind of a line with this content. -/
def ofContent (content : Text) : Line :=
  if content.isEmpty then blank
  else match readTag? content with
    | some (key, value) => tag key value
    | none => prose content

/-- The kind of a line as it stands in a comment. -/
def ofText (line : Text) : Line :=
  match content? line with
  | some content => ofContent content
  | none => blank

end Line

end DocComments

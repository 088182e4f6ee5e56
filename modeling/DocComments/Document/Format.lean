import DocComments.Document.Json
import DocComments.Document.Markdown
import DocComments.Document.Plain

/-!
# Output formats

A format has a full name, for two of them a short one, and the extension of the files it is
written to.
-/

namespace DocComments

/-- How a document is written. -/
inductive Format where
  /-- Markdown, for reading. -/
  | markdown
  /-- JSON, for other programs. -/
  | json
  /-- Plain text, one entry after the other. -/
  | plain
  deriving DecidableEq, Repr

namespace Format

/-- The format of a given name. Names are compared exactly. -/
def ofName? (name : Text) : Option Format :=
  if name = "markdown".toList ∨ name = "md".toList then some markdown
  else if name = "json".toList then some json
  else if name = "text".toList ∨ name = "txt".toList then some plain
  else none

/-- What is said of a name that no format has. -/
def unknownMessage (name : Text) : Text :=
  "unknown format: ".toList ++ name ++ ". Use markdown, json, or text".toList

/-- The extension of a file in this format. -/
def extension : Format → Text
  | markdown => "md".toList
  | json => "json".toList
  | plain => "txt".toList

/-- A document in this format. -/
def render : Format → Document → Text
  | markdown => Document.markdown
  | json => Document.json
  | plain => Document.plain

end Format

end DocComments

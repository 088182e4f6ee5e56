import DocComments.Document.Basic
import DocComments.Json.Printer

/-!
# Documents as JSON

The fields of every object stand in alphabetical order, and an absent text is written as null.
-/

namespace DocComments

/-- An entry as JSON. -/
def Entry.toJson (e : Entry) : Json :=
  .object [("key".toList, .ofOption e.key), ("value".toList, .ofOption e.value)]

/-- A comment as JSON. -/
def Comment.toJson (c : Comment) : Json :=
  .object
    [("header".toList, .ofOption c.entries.header),
      ("line".toList, .number c.line),
      ("parameters".toList, .array (c.entries.map Entry.toJson)),
      ("target".toList, .ofOption c.target),
      ("title".toList, .ofOption c.entries.title)]

namespace Document

/-- A document as JSON. -/
def toJson (d : Document) : Json :=
  .object
    [("blocks".toList, .array (d.comments.map Comment.toJson)),
      ("source".toList, .string d.source)]

/-- A document written as JSON, on lines of their own. -/
def json (d : Document) : Text :=
  d.toJson.indented ++ ['\n']

end Document

end DocComments

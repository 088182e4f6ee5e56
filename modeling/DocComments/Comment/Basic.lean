import DocComments.Entry.Collector
import DocComments.Entry.Query

/-!
# Doc comments

A doc comment is kept with the line it starts on and with what it documents.
-/

namespace DocComments

/-- A doc comment found in a source. -/
structure Comment where
  /-- The number of the line that the comment starts on, counted from one. -/
  line : Nat
  /-- The text of the comment, delimiters included. -/
  text : Text
  /-- The first line of what the comment documents. -/
  target : Option Text
  deriving DecidableEq, Repr

/-- The entries of the comment. -/
def Comment.entries (c : Comment) : Entries :=
  Entry.parse c.text

end DocComments

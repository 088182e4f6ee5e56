import DocComments.Comment.Scan

/-!
# Documents

A document is the list of doc comments of one source, under the source's name. It is the input of
every output format.

* `Document.extract` reads the doc comments of a source.
* `Document.raw` takes a whole text as one comment.
-/

namespace DocComments

/-- The doc comments of one source. -/
structure Document where
  /-- What the source is called in the output. -/
  source : Text
  /-- Its comments, in order. -/
  comments : List Comment
  deriving DecidableEq, Repr

namespace Document

/-- The doc comments that the content of a source holds. -/
def extract (source content : Text) : Document :=
  ⟨source, Comment.scan content⟩

/-- A text that is itself one doc comment, with or without its delimiters. -/
def raw (source text : Text) : Document :=
  ⟨source, [⟨1, text, none⟩]⟩

end Document

end DocComments

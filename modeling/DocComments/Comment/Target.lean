import DocComments.Comment.Scan

/-!
# What a comment documents

A comment documents the first line after it that is not blank, unless that line starts another
comment. Which line it is depends on nothing but the text after the comment.

* `Text.headline?` is the first line of a text that is not blank, and `targetAfter?` what a comment
  before the text documents.
* `Span.target?_eq_targetAfter?`: the scan finds just that.
-/

namespace DocComments

/-- The first line that is not blank, without the blanks around it. -/
def Text.headline? (t : Text) : Option Text :=
  ((lines t).map trim).find? (!·.isEmpty)

/-- What a comment documents that the text follows. -/
def targetAfter? (t : Text) : Option Text :=
  (Text.headline? t).filter (!Span.startsComment ·)

theorem Span.target?_eq_targetAfter? (s : Span) : s.target? = targetAfter? s.rest := by
  rw [target?, Text.findLine?_eq_find?, targetAfter?, Text.headline?, List.find?_map]
  rfl

end DocComments

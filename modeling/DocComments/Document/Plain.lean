import DocComments.Document.Basic

/-!
# Documents as plain text

A comment is a line with its place, its entries one after the other, and an empty line.
-/

namespace DocComments

/-- An entry in plain text: a tag as it is written in a comment, prose as it is. -/
def Entry.plain : Entry → Text
  | ⟨some key, some value⟩ => '@' :: key ++ ' ' :: value
  | ⟨some key, none⟩ => '@' :: key
  | ⟨none, some value⟩ => value
  | ⟨none, none⟩ => []

/-- A comment of the named source in plain text. -/
def Comment.plain (source : Text) (c : Comment) : Text :=
  source ++ ':' :: Text.ofNat c.line ++ ['\n'] ++
    c.entries.flatMap (fun e => e.plain ++ ['\n']) ++ ['\n']

/-- A document in plain text. -/
def Document.plain (d : Document) : Text :=
  d.comments.flatMap (Comment.plain d.source)

end DocComments

import DocComments.Comment.Basic
import DocComments.Text.Search

/-!
# Finding doc comments in a source

A doc comment starts with a slash and two stars and ends with the first star and slash after them.
A slash directly after the two stars makes an empty comment, which documents nothing. A comment
that is never closed ends the search.

* `spans` cuts a source at its doc comments, counting lines on the way.
* `settle` gives the delimiter that closes a comment a line of its own, so that it is not read as
  part of the last entry.
* `target?` is what the comment documents: the first line after it that is not blank, unless that
  line starts another comment.
* `Comment.scan` reads the doc comments of a source.
-/

namespace DocComments

/-- The delimiter that opens a doc comment. -/
def openDelimiter : Text := ['/', '*', '*']

/-- The delimiter that closes a comment. -/
def closeDelimiter : Text := ['*', '/']

/-- A doc comment where it stands in a source. -/
structure Span where
  /-- The line that the opening delimiter is on. -/
  line : Nat
  /-- What stands between the delimiters. -/
  inner : Text
  /-- The source after the closing delimiter. -/
  rest : Text
  deriving DecidableEq, Repr

/-! ## Cutting a source at its comments -/

/-- The doc comments of a text that starts on the given line. -/
def spans (line : Nat) (source : Text) : List Span :=
  match hopen : Text.cut? openDelimiter source with
  | none => []
  | some (before, '/' :: after) =>
    have := Text.length_lt_of_cut? (by decide) hopen
    spans (line + before.count '\n') after
  | some (before, after) =>
    match hclose : Text.cut? closeDelimiter after with
    | none => []
    | some (inner, rest) =>
      have := Text.length_lt_of_cut? (by decide) hopen
      have := Text.length_lt_of_cut? (by decide) hclose
      let start := line + before.count '\n'
      ⟨start, inner, rest⟩ :: spans (start + inner.count '\n') rest
termination_by source.length
decreasing_by
  · simp_all only [List.length_cons]; omega
  · omega

/-! ## Text and target -/

namespace Span

/-- The comment without its closing delimiter. -/
def body (s : Span) : Text :=
  openDelimiter ++ s.inner

/-- The text of the comment. The closing delimiter stays where it is if nothing but stars shares
its line, and gets a line of its own otherwise. -/
def settle (s : Span) : Text :=
  if (Text.trim (Text.lastLine s.body)).all (· == '*') then s.body ++ closeDelimiter
  else Text.trimEnd s.body ++ ['\n', ' '] ++ closeDelimiter

/-- Does the line start a comment, of either kind? -/
def startsComment (line : Text) : Bool :=
  ['/', '*'].isPrefixOf line || ['/', '/'].isPrefixOf line

/-- The first line after the comment that is not blank, if it starts no comment. -/
def target? (s : Span) : Option Text :=
  let line := (Text.findLine? (fun line => !(Text.trim line).isEmpty) s.rest).map Text.trim
  line.filter (!startsComment ·)

/-- The comment with its text and target. -/
def toComment (s : Span) : Comment :=
  ⟨s.line, s.settle, s.target?⟩

end Span

/-- The doc comments of a source, in order. -/
def Comment.scan (source : Text) : List Comment :=
  (spans 1 source).map Span.toComment

end DocComments

import DocComments.Entry.Basic
import DocComments.Line
import DocComments.Text.Lines

/-!
# Collecting entries line by line

The entries of a comment are collected in one pass over its lines. The collector holds the entries
that are complete and a draft of the one that the next line may continue. A blank line completes
the draft, a tag completes it and opens the next, and prose goes on with it.

* `Collector.feed` takes one line and `Collector.finish` completes what is left.
* `Entry.parse` reads the entries of a whole comment.
-/

namespace DocComments

/-- An entry that further lines may continue. -/
structure Draft where
  /-- The key of the tag that opened the draft; absent for prose. -/
  key : Option Text
  /-- The non-empty pieces of its value, one a line. -/
  pieces : Array Text
  deriving DecidableEq, Repr

namespace Draft

/-- The draft that a tag opens. A tag that stands alone has no piece yet. -/
def ofTag (key value : Text) : Draft :=
  ⟨some key, if value.isEmpty then #[] else #[value]⟩

/-- The draft with one more line of prose. -/
def extend : Option Draft → Text → Draft
  | none, content => ⟨none, #[content]⟩
  | some draft, content => ⟨draft.key, draft.pieces.push content⟩

/-- The entry that the draft amounts to. -/
def toEntry (draft : Draft) : Entry :=
  .ofTexts draft.key <|
    if draft.pieces.isEmpty then none else some (Text.joinLines draft.pieces.toList)

end Draft

/-- The state of reading a comment: the complete entries, in order, and the draft. -/
structure Collector where
  /-- The complete entries, in the order of the comment. -/
  entries : Array Entry
  /-- The entry that is still open. -/
  draft : Option Draft
  deriving DecidableEq, Repr

namespace Collector

/-- The state before the first line. -/
def empty : Collector :=
  ⟨#[], none⟩

/-- Is an entry still open? -/
def isPending (c : Collector) : Bool :=
  c.draft.isSome

/-- Complete the draft. -/
def close (c : Collector) : Collector :=
  match c.draft with
  | none => c
  | some draft => ⟨c.entries.push draft.toEntry, none⟩

/-- Take a line of the given kind. -/
def step (c : Collector) : Line → Collector
  | .blank => c.close
  | .tag key value => { c.close with draft := some (.ofTag key value) }
  | .prose content => { c with draft := some (.extend c.draft content) }

/-- Take a line as it stands in a comment. -/
def feed (c : Collector) (line : Text) : Collector :=
  c.step (.ofText line)

/-- All entries, the open one included. -/
def finish (c : Collector) : Entries :=
  c.close.entries.toList

@[simp]
theorem isPending_close (c : Collector) : c.close.isPending = false := by
  unfold close isPending
  split <;> simp_all

end Collector

/-- The entries that the lines hold. -/
def Entry.ofLines (lines : List Text) : Entries :=
  (lines.foldl Collector.feed .empty).finish

/-- The entries of a doc comment, in the order of its text. -/
def Entry.parse (raw : Text) : Entries :=
  ofLines (Text.lines raw)

end DocComments

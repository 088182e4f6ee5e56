import DocComments.Comment.Target
import DocComments.Text.Bytes

/-!
# Reading comments by byte offsets

The scan of a source can go by offsets in bytes: a cursor keeps the offset up to which the source
has been read, the number of the line there, and the comments found on the way. One round looks for
the next comment and moves the cursor behind it. The offsets come from searches in what lies ahead,
with the lengths of the delimiters added, and the source is sliced at them; a round fails where an
offset is no place in the source.

* `round?` is one round; `enter?` is its second part, from an opening delimiter on.
* `run?` repeats it until nothing more is found. A round moves the cursor on, and not past the end
  of the source (`offset_lt_of_round?`), so that a run ends.
* `Reached` holds of the cursors that a run goes through.
-/

namespace DocComments

open Text

/-- How far a source has been read. -/
structure Cursor where
  /-- The offset of what is still to be read. -/
  offset : Nat
  /-- The line that the offset is on. -/
  line : Nat
  /-- The comments found so far. -/
  found : List Comment
  deriving DecidableEq, Repr

/-- What a round comes to. -/
inductive Round where
  /-- There are no more comments. -/
  | stop
  /-- The source has been read up to a later place. -/
  | next (c : Cursor)
  deriving DecidableEq, Repr

/-- The offset of the first occurrence of `pat`. -/
def offsetOf? (pat t : Text) : Option Nat :=
  (cut? pat t).map fun (before, _) => byteLength before

/-- The text of a comment that is given with both its delimiters. The closing delimiter is cut off
by its length, and stays where it is if nothing but stars shares its line. -/
def settle? (raw : Text) : Option Text := do
  guard (2 ≤ byteLength raw)
  let body ← slice? raw 0 (byteLength raw - 2)
  return if (trim (lastLine body)).all (· == '*') then raw
    else trimEnd body ++ ['\n', ' '] ++ closeDelimiter

namespace Cursor

/-- Where reading starts. -/
def start : Cursor :=
  ⟨0, 1, []⟩

/-- What comes of an opening delimiter that the cursor stands at. -/
def enter? (source : Text) (c : Cursor) : Option Round := do
  let body := c.offset + 3
  let inside ← sliceFrom? source body
  if ['/'].isPrefixOf inside then return .next { c with offset := body + 1 }
  else
    match offsetOf? closeDelimiter inside with
    | none => return .stop
    | some close =>
      let stop := body + close + 2
      let raw ← slice? source c.offset stop
      let text ← settle? raw
      let rest ← sliceFrom? source stop
      let comment := ⟨c.line, text, targetAfter? rest⟩
      return .next ⟨stop, c.line + raw.count '\n', c.found ++ [comment]⟩

/-- One round, which fails if a slice does. -/
def round? (source : Text) (c : Cursor) : Option Round := do
  let ahead ← sliceFrom? source c.offset
  match offsetOf? openDelimiter ahead with
  | none => return .stop
  | some pos =>
    let start := c.offset + pos
    let between ← slice? source c.offset start
    enter? source { c with offset := start, line := c.line + between.count '\n' }

variable {source : Text} {c c' : Cursor}

theorem offset_lt_of_enter? (h : enter? source c = some (.next c')) :
    c.offset < c'.offset ∧ c'.offset ≤ byteLength source := by
  obtain ⟨inside, hinside, h⟩ := Option.bind_eq_some_iff.1 h
  split at h
  · next hslash =>
    cases h
    obtain ⟨before, rfl, hbefore⟩ := sliceFrom?_eq_some_iff.1 hinside
    obtain ⟨after, rfl⟩ := List.isPrefixOf_iff_prefix.1 hslash
    refine ⟨by dsimp only; omega, ?_⟩
    rw [byteLength_append, hbefore]
    exact Nat.add_le_add_left (Nat.le_add_right 1 _) _
  · split at h
    · cases h
    · obtain ⟨raw, -, h⟩ := Option.bind_eq_some_iff.1 h
      obtain ⟨text, -, h⟩ := Option.bind_eq_some_iff.1 h
      obtain ⟨rest, hrest, h⟩ := Option.bind_eq_some_iff.1 h
      cases h
      refine ⟨by dsimp only; omega, ?_⟩
      exact (isSome_sliceFrom?_iff.1 (Option.isSome_of_eq_some hrest)).le_byteLength

/-- **A round that goes on reads on**, and not past the end of the source. -/
theorem offset_lt_of_round? (h : round? source c = some (.next c')) :
    c.offset < c'.offset ∧ c'.offset ≤ byteLength source := by
  obtain ⟨ahead, -, h⟩ := Option.bind_eq_some_iff.1 h
  split at h
  · cases h
  · obtain ⟨between, -, h⟩ := Option.bind_eq_some_iff.1 h
    exact (offset_lt_of_enter? h).imp_left (Nat.lt_of_le_of_lt (Nat.le_add_right ..))

/-- The comments that rounds find from a cursor on, unless one fails. -/
def run? (source : Text) (c : Cursor) : Option (List Comment) :=
  match h : round? source c with
  | none => none
  | some .stop => some c.found
  | some (.next c') =>
    have := offset_lt_of_round? h
    run? source c'
termination_by byteLength source - c.offset

/-- The cursors that rounds lead to. -/
inductive Reached (source : Text) : Cursor → Prop
  | start : Reached source start
  | next {c c' : Cursor} : Reached source c → round? source c = some (.next c') → Reached source c'

end Cursor

end DocComments

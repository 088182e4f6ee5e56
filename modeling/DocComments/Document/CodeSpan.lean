import DocComments.Text.Basic

/-!
# Code spans

In Markdown a text is quoted as code between two fences, runs of backticks of the same length. The
fence is longer than every run in the text, so the text cannot end it.

* `codeSpan` writes a text as code.
* `readCodeSpan?` reads it back: it removes the fences, and one space from each end if there is one
  at both and something else between them.
* `fences` lists the lengths of the runs of backticks in a text.
-/

namespace DocComments

/-- The character that code is quoted with. -/
def backtick : Char := '\x60'

/-- Is `c` a backtick? -/
def isBacktick (c : Char) : Bool :=
  c == backtick

/-! ## Writing -/

/-- The length of the longest run of backticks, when a run of length `current` stands before the
text and `longest` is the longest run before that. -/
def longestFence (current longest : Nat) : Text → Nat
  | [] => max current longest
  | c :: t =>
    if isBacktick c then longestFence (current + 1) longest t
    else longestFence 0 (max current longest) t

/-- A run of backticks. -/
def fence (length : Nat) : Text :=
  List.replicate length backtick

/-- The text as code. A space keeps the fence apart from a backtick at either end of the text. -/
def codeSpan (t : Text) : Text :=
  let around := fence (longestFence 0 0 t + 1)
  let touches := t.head?.any isBacktick || t.getLast?.any isBacktick
  let pad := if touches then [' '] else []
  around ++ pad ++ t ++ pad ++ around

/-! ## Reading -/

/-- The lengths of the longest runs of backticks, in order. -/
def fences (t : Text) : List Nat :=
  ((t.splitOnP (!isBacktick ·)).map List.length).filter (0 < ·)

/-- The text without one space at each end, if there is one at both and something else between
them. -/
def unpad (t : Text) : Text :=
  if t.head? = some ' ' ∧ t.getLast? = some ' ' ∧ t.any (· != ' ') then (t.drop 1).dropLast else t

/-- The text that stands as code between two fences of equal length, which no run inside is as long
as. -/
def readCodeSpan? (t : Text) : Option Text :=
  let length := (t.takeWhile isBacktick).length
  let inner := (t.drop length).take (t.length - 2 * length)
  if 0 < length ∧ t = fence length ++ inner ++ fence length ∧ ∀ run ∈ fences inner, run < length
  then some (unpad inner)
  else none

end DocComments

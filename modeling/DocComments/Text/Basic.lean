/-!
# Text

A text is the list of its characters, so that every function on texts is recursion on data or an
operator of `List`.

* `dropEndWhile` and `takeEndWhile` cut a text before its longest final run of a class of
  characters; together they lose nothing (`dropEndWhile_append_takeEndWhile`).
* `lastLine` is what follows the last line break.
* `joinLines` and `joinParagraphs` put a list of texts on lines and in paragraphs of their own.
-/

namespace DocComments

/-- A text is the list of its characters. -/
abbrev Text := List Char

namespace Text

/-! ## Cutting at the end -/

/-- The text without its longest final run of characters in `p`. -/
def dropEndWhile (p : Char → Bool) (t : Text) : Text :=
  (t.reverse.dropWhile p).reverse

/-- The longest final run of characters in `p`. -/
def takeEndWhile (p : Char → Bool) (t : Text) : Text :=
  (t.reverse.takeWhile p).reverse

theorem dropEndWhile_append_takeEndWhile (p : Char → Bool) (t : Text) :
    dropEndWhile p t ++ takeEndWhile p t = t := by
  rw [dropEndWhile, takeEndWhile, ← List.reverse_append, List.takeWhile_append_dropWhile,
    List.reverse_reverse]

@[simp]
theorem dropEndWhile_nil (p : Char → Bool) : dropEndWhile p [] = [] := rfl

/-- What follows the last line break; the whole text if there is none. -/
def lastLine (t : Text) : Text :=
  takeEndWhile (· != '\n') t

theorem newline_not_mem_lastLine (t : Text) : '\n' ∉ lastLine t := by
  intro h
  have h' := List.all_eq_true.1 List.all_takeWhile _ (List.mem_reverse.1 h)
  simp at h'

/-! ## Joining -/

/-- The texts on lines of their own, without a line break after the last. -/
def joinLines (ts : List Text) : Text :=
  List.intercalate ['\n'] ts

/-- The texts as paragraphs, with an empty line between each two. -/
def joinParagraphs (ts : List Text) : Text :=
  List.intercalate ['\n', '\n'] ts

/-! ## Numbers -/

/-- A number in decimal digits. -/
def ofNat (n : Nat) : Text :=
  Nat.toDigits 10 n

end Text

end DocComments

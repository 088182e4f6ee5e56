import DocComments.Text.Basic

/-!
# Blank characters

The blank characters are those with the Unicode property White_Space. Every rule of the library
that skips space, trims, or calls a text empty but for space means this class.

* `blanks` lists the class, and `isBlank` decides it.
* `trim` removes blanks from both ends, `trimStart` and `trimEnd` from one.
-/

namespace DocComments.Text

/-- The characters with the Unicode property White_Space. -/
def blanks : List Char :=
  ['\x09', '\x0a', '\x0b', '\x0c', '\x0d', '\x20', '\u0085', '\u00a0', '\u1680',
    '\u2000', '\u2001', '\u2002', '\u2003', '\u2004', '\u2005', '\u2006', '\u2007', '\u2008',
    '\u2009', '\u200a', '\u2028', '\u2029', '\u202f', '\u205f', '\u3000']

/-- Is `c` white space? -/
def isBlank (c : Char) : Bool :=
  blanks.contains c

theorem isBlank_iff_mem {c : Char} : isBlank c = true ↔ c ∈ blanks := by
  simp [isBlank]

/-- The text without the blanks it starts with. -/
def trimStart (t : Text) : Text :=
  t.dropWhile isBlank

/-- The text without the blanks it ends with. -/
def trimEnd (t : Text) : Text :=
  dropEndWhile isBlank t

/-- The text without blanks at either end. -/
def trim (t : Text) : Text :=
  trimEnd (trimStart t)

@[simp]
theorem trim_nil : trim [] = [] := rfl

end DocComments.Text

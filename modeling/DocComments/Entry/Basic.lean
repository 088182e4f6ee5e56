import DocComments.Text.Blank

/-!
# Entries

A doc comment is read as a list of entries. An entry with a key is a tag, such as the description
of one argument; an entry without one is a paragraph of prose.

* `Entry.ofTexts` trims a key and a value and drops the one that is blank, so no entry it makes
  has an empty key or value (`Entry.ne_nil_of_nonBlank?`).
-/

namespace DocComments

/-- A paragraph of prose, or a tag with or without a value. -/
structure Entry where
  /-- The word after the at sign, absent for prose. -/
  key : Option Text
  /-- The lines of the entry, absent for a tag that stands alone. -/
  value : Option Text
  deriving DecidableEq, Repr

namespace Entry

/-- A text without the blanks around it, absent if nothing else is left. -/
def nonBlank? (t : Option Text) : Option Text :=
  (t.map Text.trim).filter fun t => !t.isEmpty

/-- The entry with this key and this value, each trimmed and left out where it is blank. -/
def ofTexts (key value : Option Text) : Entry :=
  ⟨nonBlank? key, nonBlank? value⟩

/-- A paragraph of prose. -/
def prose (value : Text) : Entry :=
  ofTexts none (some value)

/-- A tag. -/
def tag (key : Text) (value : Option Text) : Entry :=
  ofTexts (some key) value

/-- Is this a paragraph of prose? -/
def isProse (e : Entry) : Bool :=
  e.key.isNone

/-- Is this a tag? -/
def isTag (e : Entry) : Bool :=
  e.key.isSome

theorem isTag_eq_not_isProse (e : Entry) : e.isTag = !e.isProse := by
  simp [isTag, isProse]

@[simp]
theorem nonBlank?_none : nonBlank? none = none := rfl

theorem ne_nil_of_nonBlank? {o : Option Text} {t : Text} (h : nonBlank? o = some t) : t ≠ [] := by
  have ht := (Option.filter_eq_some_iff.1 h).2
  rintro rfl
  simp at ht

end Entry

/-- The entries of one comment, in order. -/
abbrev Entries := List Entry

end DocComments

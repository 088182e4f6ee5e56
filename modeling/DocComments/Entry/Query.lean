import DocComments.Entry.Basic

/-!
# Looking up entries

The questions that can be asked of the entries of a comment. A key is compared exactly as it is
given; the absent key stands for prose.

* `title` and `header` read the prose that the comment starts with.
* `texts` and `tags` divide the entries into prose and tags.
* `find`, `findValues`, `first` and `firstValue` look a key up, and `findOrFail`, `firstOrFail`
  and `firstValueOrFail` report a key that is missing.
-/

namespace DocComments

/-- Why a look-up failed. -/
inductive LookupError where
  /-- No entry has the key, or the first that has it holds no value. -/
  | notFound (key : Option Text)
  deriving DecidableEq, Repr

/-- What is said of a failed look-up. The absent key is called by the name of what it finds. -/
def LookupError.message : LookupError → Text
  | .notFound key => "docblock key '".toList ++ key.getD "<text>".toList ++ "' not found".toList

namespace Entries

/-! ## Prose and tags -/

/-- The first paragraph, if the comment starts with prose. -/
def title (es : Entries) : Option Text :=
  (es.head?.filter Entry.isProse).bind Entry.value

/-- The paragraphs that the comment starts with. -/
def header (es : Entries) : Option Text :=
  let paragraphs := (es.takeWhile Entry.isProse).filterMap Entry.value
  if paragraphs.isEmpty then none else some (Text.joinParagraphs paragraphs)

/-- The tags. -/
def tags (es : Entries) : Entries :=
  es.filter Entry.isTag

/-! ## Look-ups by key -/

/-- The entries with the key. -/
def find (es : Entries) (key : Option Text) : Entries :=
  es.filter (·.key == key)

/-- The values of the entries with the key. -/
def findValues (es : Entries) (key : Option Text) : List (Option Text) :=
  (es.find key).map Entry.value

/-- The first entry with the key. -/
def first (es : Entries) (key : Option Text) : Option Entry :=
  es.find? (·.key == key)

/-- The value of the first entry with the key. -/
def firstValue (es : Entries) (key : Option Text) : Option Text :=
  (es.first key).bind Entry.value

/-- Every paragraph of prose. -/
def texts (es : Entries) : List Text :=
  (es.find none).filterMap Entry.value

/-! ## Look-ups that may fail -/

/-- The entries with the key, of which there must be one. -/
def findOrFail (es : Entries) (key : Option Text) : Except LookupError Entries :=
  match es.find key with
  | [] => .error (.notFound key)
  | found => .ok found

/-- The first entry with the key. -/
def firstOrFail (es : Entries) (key : Option Text) : Except LookupError Entry :=
  match es.first key with
  | none => .error (.notFound key)
  | some e => .ok e

/-- The value of the first entry with the key. Later entries are not tried. -/
def firstValueOrFail (es : Entries) (key : Option Text) : Except LookupError Text :=
  match es.firstValue key with
  | none => .error (.notFound key)
  | some value => .ok value

end Entries

end DocComments

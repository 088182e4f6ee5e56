import DocComments.Json.Basic

/-!
# Writing JSON

One printer writes every layout. A layout says what stands between the items of a list or an
object, at each depth, and what stands after a field's name.

* `Layout.compact` writes no space at all, `Layout.indented` puts each item on a line of its own,
  two spaces further in than the brackets around it.
* `quote` writes a text. Quotes, backslashes and the characters below the space are escaped, and
  every other character stands for itself.
-/

namespace DocComments.Json

/-! ## Texts -/

/-- The hexadecimal digits of a number, four of them. -/
def hex4 (n : Nat) : Text :=
  let digits := Nat.toDigits 16 n
  List.replicate (4 - digits.length) '0' ++ digits

/-- A character as it is written in a JSON text. -/
def escape (c : Char) : Text :=
  match c with
  | '"' => ['\\', '"']
  | '\\' => ['\\', '\\']
  | '\x08' => ['\\', 'b']
  | '\t' => ['\\', 't']
  | '\n' => ['\\', 'n']
  | '\x0c' => ['\\', 'f']
  | '\r' => ['\\', 'r']
  | c => if c.toNat < 0x20 then '\\' :: 'u' :: hex4 c.toNat else [c]

/-- A text in quotes. -/
def quote (t : Text) : Text :=
  '"' :: t.flatMap escape ++ ['"']

/-! ## Layouts -/

/-- Where a printer puts space. -/
structure Layout where
  /-- What stands before each item at the given depth, and before the closing bracket. -/
  lineBreak : Nat → Text
  /-- What stands between a field's name and its value. -/
  colon : Text

/-- No space anywhere. -/
def Layout.compact : Layout :=
  ⟨fun _ => [], [':']⟩

/-- Each item on a line of its own, indented by two spaces for each bracket around it. -/
def Layout.indented : Layout :=
  ⟨fun depth => '\n' :: List.replicate (2 * depth) ' ', [':', ' ']⟩

/-! ## Values -/

/-- Brackets around written items, which start at the given depth. -/
def bracket (layout : Layout) (depth : Nat) (left right : Char) : List Text → Text
  | [] => [left, right]
  | items =>
    left :: List.intercalate [','] (items.map (layout.lineBreak (depth + 1) ++ ·)) ++
      layout.lineBreak depth ++ [right]

mutual

/-- A value, inside as many brackets as the depth says. -/
def write (layout : Layout) (depth : Nat) : Json → Text
  | .null => ['n', 'u', 'l', 'l']
  | .number n => Text.ofNat n
  | .string t => quote t
  | .array items => bracket layout depth '[' ']' (writeItems layout (depth + 1) items)
  | .object fields => bracket layout depth '\x7b' '\x7d' (writeFields layout (depth + 1) fields)

/-- The items of a list. -/
def writeItems (layout : Layout) (depth : Nat) : List Json → List Text
  | [] => []
  | item :: items => write layout depth item :: writeItems layout depth items

/-- The fields of an object, each with its name. -/
def writeFields (layout : Layout) (depth : Nat) : List (Text × Json) → List Text
  | [] => []
  | (name, value) :: fields =>
    (quote name ++ layout.colon ++ write layout depth value) :: writeFields layout depth fields

end

/-- A value without any space. -/
def compact (json : Json) : Text :=
  write .compact 0 json

/-- A value with each item on a line of its own. -/
def indented (json : Json) : Text :=
  write .indented 0 json

end DocComments.Json

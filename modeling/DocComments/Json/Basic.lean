import DocComments.Text.Basic

/-!
# JSON values

The values that this library writes as JSON: no fractions, no negative numbers and no truth
values. An object keeps its fields in the order in which they are written.
-/

namespace DocComments

/-- A JSON value. -/
inductive Json where
  /-- The absent value. -/
  | null
  /-- A natural number. -/
  | number (n : Nat)
  /-- A text. -/
  | string (t : Text)
  /-- A list of values. -/
  | array (items : List Json)
  /-- A list of named values, in the order in which they are written. -/
  | object (fields : List (Text × Json))

/-- A text that may be absent. -/
def Json.ofOption : Option Text → Json
  | none => .null
  | some t => .string t

end DocComments

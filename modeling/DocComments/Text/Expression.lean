import DocComments.Text.Basic

/-!
# Regular expressions

A regular expression is a sequence of parts, each a class of characters and how many of them can
stand in a row, and it matches a text as a whole. A part takes as much as it can and gives it back
character by character, but only where the parts after it cannot match what is left. So a text can
be matched in many ways, they are tried in this order, and the first one counts.

* `cuts` lists what a part can take from the start of a text, and `Expression.ways` how the parts
  can share a whole text.
* `Expression.firstWay?` is the way that counts: what each part has taken.
-/

namespace DocComments

namespace Expression

/-- A class of characters, and how many of them can stand in a row. -/
structure Part where
  /-- Is the character in the class? -/
  accepts : Char → Bool
  /-- The fewest characters to take. -/
  least : Nat
  /-- The most characters to take, absent where there is no bound. -/
  most : Option Nat

namespace Part

/-- Exactly one character of the class. -/
def one (p : Char → Bool) : Part := ⟨p, 1, some 1⟩

/-- A character of the class, or none. -/
def optional (p : Char → Bool) : Part := ⟨p, 0, some 1⟩

/-- Any number of characters of the class. -/
def any (p : Char → Bool) : Part := ⟨p, 0, none⟩

/-- At least one character of the class. -/
def some (p : Char → Bool) : Part := ⟨p, 1, none⟩

end Part

/-- The ways to cut a text after some characters of the class, the longest first. -/
def cuts (p : Char → Bool) (least : Nat) (most : Option Nat) : Text → List (Text × Text)
  | [] => if least = 0 then [([], [])] else []
  | c :: t =>
    let longer :=
      if p c ∧ most ≠ some 0 then
        (cuts p (least - 1) (most.map (· - 1)) t).map fun cut => (c :: cut.1, cut.2)
      else []
    longer ++ if least = 0 then [([], c :: t)] else []

end Expression

/-- A sequence of parts. -/
abbrev Expression := List Expression.Part

namespace Expression

/-- The ways in which the parts can share the whole text, in the order in which they are tried. -/
def ways : Expression → Text → List (List Text)
  | [], t => if t = [] then [[]] else []
  | part :: parts, t =>
    (cuts part.accepts part.least part.most t).flatMap fun cut =>
      (ways parts cut.2).map (cut.1 :: ·)

/-- What each part takes, if the expression matches. -/
def firstWay? (e : Expression) (t : Text) : Option (List Text) :=
  (ways e t).head?

end Expression

end DocComments

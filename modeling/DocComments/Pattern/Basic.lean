import DocComments.Text.Search

/-!
# Name patterns

A pattern stands for many paths. In it a question mark is any character, a star any characters, and
brackets any of a class of characters, or any outside the class after an exclamation mark. These
stay within one name. Two stars, which have to stand alone between slashes, go through directories
of any depth.

* `Token.parse` reads a pattern, and `PatternError` says where and why it is not one.
* `Token.accepts` matches a name with the tokens of one.
-/

namespace DocComments

/-- What is wrong with a pattern. -/
inductive PatternFault where
  /-- Two stars share their place between slashes with something else. -/
  | mixedRecursion
  /-- There are more than two stars in a row. -/
  | tooManyStars
  /-- A bracket opens no class. -/
  | openClass
  deriving DecidableEq, Repr

/-- What is said of a fault. -/
def PatternFault.message : PatternFault → Text
  | mixedRecursion => "recursive wildcards must form a single path component".toList
  | tooManyStars =>
    "wildcards are either regular ".toList ++ ['\x60', '*', '\x60'] ++ " or recursive ".toList ++
      ['\x60', '*', '*', '\x60']
  | openClass => "invalid range pattern".toList

/-- A fault and where it is. -/
structure PatternError where
  /-- The number of characters before the fault. -/
  position : Nat
  /-- The fault. -/
  fault : PatternFault
  deriving DecidableEq, Repr

/-- What is said of a pattern that is none. -/
def PatternError.message (e : PatternError) : Text :=
  "Pattern syntax error near position ".toList ++ Text.ofNat e.position ++ [':', ' '] ++
    e.fault.message

/-- A range of characters, both ends included. -/
abbrev CharRange := Char × Char

/-- A part of a pattern. -/
inductive Token where
  /-- The character itself. -/
  | char (c : Char)
  /-- Any character. -/
  | anyChar
  /-- Any number of characters. -/
  | anyText
  /-- Directories of any depth. -/
  | anyDepth
  /-- Any character of the class. -/
  | oneOf (ranges : List CharRange)
  /-- Any character outside the class. -/
  | noneOf (ranges : List CharRange)
  deriving DecidableEq, Repr

namespace Token

/-! ## Reading -/

/-- The class that the text between two brackets stands for. A hyphen between two characters makes
a range of them. -/
def rangesOf : Text → List CharRange
  | a :: '-' :: b :: t => (a, b) :: rangesOf t
  | a :: t => (a, a) :: rangesOf t
  | [] => []

/-- The text of a class, which has at least one character, and what follows its closing bracket.
A closing bracket that comes first belongs to the class. -/
def cutClass? : Text → Option (Text × Text)
  | [] => none
  | c :: t => (Text.cut? [']'] t).map fun (inner, rest) => (c :: inner, rest)

theorem length_lt_of_cutClass? {t inner rest : Text} (h : cutClass? t = some (inner, rest)) :
    rest.length < t.length := by
  cases t with
  | nil => cases h
  | cons c t =>
    obtain ⟨⟨i, r⟩, hcut, heq⟩ := Option.map_eq_some_iff.1 h
    cases heq
    have := Text.length_lt_of_cut? (by decide) hcut
    rw [List.length_cons]
    omega

/-- The tokens of the rest of a pattern, when `position` characters stand before it, the last of
them `before`. -/
def parseFrom (position : Nat) (before : Option Char) :
    Text → Except PatternError (List Token)
  | [] => .ok []
  | '?' :: t => (parseFrom (position + 1) (some '?') t).map (anyChar :: ·)
  | '*' :: '*' :: '*' :: _ => .error ⟨position + 2, .tooManyStars⟩
  | '*' :: '*' :: t =>
    if before ≠ none ∧ before ≠ some '/' then .error ⟨position - 1, .mixedRecursion⟩
    else match t with
      | [] => .ok [anyDepth]
      | '/' :: t => (parseFrom (position + 3) (some '/') t).map (anyDepth :: ·)
      | _ => .error ⟨position + 2, .mixedRecursion⟩
  | '*' :: t => (parseFrom (position + 1) (some '*') t).map (anyText :: ·)
  | '[' :: '!' :: t =>
    match h : cutClass? t with
    | none => .error ⟨position, .openClass⟩
    | some (inner, rest) =>
      have := length_lt_of_cutClass? h
      (parseFrom (position + inner.length + 3) (some ']') rest).map (noneOf (rangesOf inner) :: ·)
  | '[' :: t =>
    match h : cutClass? t with
    | none => .error ⟨position, .openClass⟩
    | some (inner, rest) =>
      have := length_lt_of_cutClass? h
      (parseFrom (position + inner.length + 2) (some ']') rest).map (oneOf (rangesOf inner) :: ·)
  | c :: t => (parseFrom (position + 1) (some c) t).map (char c :: ·)
termination_by t => t.length

/-- The tokens of a pattern. -/
def parse (t : Text) : Except PatternError (List Token) :=
  parseFrom 0 none t

/-! ## Matching -/

/-- Is the character in one of the ranges? -/
def inRanges (ranges : List CharRange) (c : Char) : Bool :=
  ranges.any fun range => range.1.toNat ≤ c.toNat && c.toNat ≤ range.2.toNat

/-- Does the token stand for this one character? -/
def acceptsChar (c : Char) : Token → Bool
  | char d => c = d
  | anyChar => true
  | oneOf ranges => inRanges ranges c
  | noneOf ranges => !inRanges ranges c
  | anyText | anyDepth => false

/-- The ends of a text, the longest first. -/
def suffixes : Text → List Text
  | [] => [[]]
  | c :: t => (c :: t) :: suffixes t

/-- What can be left of a name after the token, when the given ends of the name can be left before
it. The ends are kept longest first, so after any number of characters all ends of the first are
possible. -/
def advance (rests : List Text) : Token → List Text
  | anyText | anyDepth => (rests.head?.map suffixes).getD []
  | token => rests.filterMap fun rest =>
    match rest with
    | [] => none
    | c :: t => if token.acceptsChar c then some t else none

/-- Do the tokens stand for this name? All ways to match are followed together, so that many stars
take no longer than few. -/
def accepts (tokens : List Token) (name : Text) : Bool :=
  (tokens.foldl advance [name]).any List.isEmpty

end Token

end DocComments

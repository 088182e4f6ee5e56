import DocComments.Json.Printer
import DocComments.Json.Reader

/-!
# The JSON grammar

Which texts stand for a value, in any layout and with any escapes. The grammar says nothing about
how a text is written or read: `Printer` writes one of the texts of a value, and `Reader` has to
read all of them.

* `WrittenChar` and `WrittenText` are the ways to write a character and a text between quotes.
* `Written` is the relation between a value and its texts, by mutual recursion with `WrittenItems`
  and `WrittenFields`, which say what stands between the brackets of a list and of an object.
-/

namespace DocComments.Json

/-! ## Texts -/

/-- The letters that stand for a character after a backslash. -/
def shortEscapes : List (Char × Char) :=
  [('"', '"'), ('\\', '\\'), ('/', '/'), ('b', '\x08'), ('f', '\x0c'), ('n', '\n'), ('r', '\r'),
    ('t', '\t')]

/-- A number below `0x10000` in hexadecimal digits, four of them. -/
inductive WrittenUnit : Nat → Text → Prop where
  | digits {a b c d : Char} {i j k l : Nat} (ha : hexDigit? a = some i) (hb : hexDigit? b = some j)
      (hc : hexDigit? c = some k) (hd : hexDigit? d = some l) :
      WrittenUnit (((i * 16 + j) * 16 + k) * 16 + l) [a, b, c, d]

/-- The ways to write a character between quotes. -/
inductive WrittenChar : Char → Text → Prop where
  /-- The character itself. -/
  | plain {c : Char} (hcontrol : 0x20 ≤ c.toNat) (hquote : c ≠ '"') (hbackslash : c ≠ '\\') :
      WrittenChar c [c]
  /-- A letter after a backslash. -/
  | short {letter c : Char} (h : (letter, c) ∈ shortEscapes) : WrittenChar c ['\\', letter]
  /-- The number of the character. -/
  | unit {n : Nat} {t : Text} (h : WrittenUnit n t) (hn : n < 0xd800 ∨ 0xdfff < n) :
      WrittenChar (Char.ofNat n) ('\\' :: 'u' :: t)
  /-- The two halves of the number of a character that takes more than four digits. -/
  | pair {high low : Nat} {t u : Text} (ht : WrittenUnit high t) (hu : WrittenUnit low u)
      (hhigh : 0xd800 ≤ high ∧ high < 0xdc00) (hlow : 0xdc00 ≤ low ∧ low ≤ 0xdfff) :
      WrittenChar (Char.ofNat (0x10000 + (high - 0xd800) * 0x400 + (low - 0xdc00)))
        ('\\' :: 'u' :: t ++ '\\' :: 'u' :: u)

/-- The ways to write a text between quotes, without the quotes. -/
inductive WrittenText : Text → Text → Prop where
  | nil : WrittenText [] []
  | cons {c : Char} {t u v : Text} (h : WrittenChar c u) (ht : WrittenText t v) :
      WrittenText (c :: t) (u ++ v)

/-! ## Values -/

/-- Text that may stand around a value. -/
def AllSpace (w : Text) : Prop :=
  ∀ c ∈ w, isSpace c = true

instance : DecidablePred AllSpace :=
  fun w => List.decidableBAll _ w

theorem AllSpace.nil : AllSpace [] :=
  List.forall_mem_nil _

mutual

/-- The texts of a value, without space around them. -/
inductive Written : Json → Text → Prop where
  | null : Written .null ['n', 'u', 'l', 'l']
  | number (n : Nat) : Written (.number n) (Text.ofNat n)
  | string {t u : Text} (h : WrittenText t u) : Written (.string t) ('"' :: u ++ ['"'])
  | emptyArray {w : Text} (hw : AllSpace w) : Written (.array []) ('[' :: w ++ [']'])
  | array {items : List Json} {t : Text} (h : WrittenItems items t) :
      Written (.array items) ('[' :: t ++ [']'])
  | emptyObject {w : Text} (hw : AllSpace w) : Written (.object []) ('\x7b' :: w ++ ['\x7d'])
  | object {fields : List (Text × Json)} {t : Text} (h : WrittenFields fields t) :
      Written (.object fields) ('\x7b' :: t ++ ['\x7d'])

/-- What stands between the brackets of a list that has items. -/
inductive WrittenItems : List Json → Text → Prop where
  | last {item : Json} {w t w' : Text} (hw : AllSpace w) (h : Written item t)
      (hw' : AllSpace w') : WrittenItems [item] (w ++ t ++ w')
  | more {item : Json} {items : List Json} {w t w' u : Text} (hw : AllSpace w)
      (h : Written item t) (hw' : AllSpace w') (hs : WrittenItems items u) :
      WrittenItems (item :: items) (w ++ t ++ w' ++ ',' :: u)

/-- What stands between the braces of an object that has fields. -/
inductive WrittenFields : List (Text × Json) → Text → Prop where
  | last {name n : Text} {value : Json} {w₀ w₁ w₂ w₃ t : Text} (hw₀ : AllSpace w₀)
      (hn : WrittenText name n) (hw₁ : AllSpace w₁) (hw₂ : AllSpace w₂) (h : Written value t)
      (hw₃ : AllSpace w₃) :
      WrittenFields [(name, value)] (w₀ ++ '"' :: n ++ '"' :: w₁ ++ ':' :: w₂ ++ t ++ w₃)
  | more {name n : Text} {value : Json} {fields : List (Text × Json)} {w₀ w₁ w₂ w₃ t u : Text}
      (hw₀ : AllSpace w₀) (hn : WrittenText name n) (hw₁ : AllSpace w₁) (hw₂ : AllSpace w₂)
      (h : Written value t) (hw₃ : AllSpace w₃) (hs : WrittenFields fields u) :
      WrittenFields ((name, value) :: fields)
        (w₀ ++ '"' :: n ++ '"' :: w₁ ++ ':' :: w₂ ++ t ++ w₃ ++ ',' :: u)

end

end DocComments.Json
